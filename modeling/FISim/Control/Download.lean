import FISim.Header
import FISim.Lib.Transition

/-!
The requests of the end hosts of a `Cybertwin` and their downloads: a cloud socket for
every request, whose packets are redirected to the socket of the end host.
-/

namespace FISim.Control

open Transition

/-- The downloads that `LocalRecvCallback` schedules, by their targets. -/
def localRecvCallback : List Packet → Option (List CybertwinId)
  | [] => some []
  | packet :: rest => do
      let (header, _) ← EndHostHeader.deserialize packet
      let later ← localRecvCallback rest
      return if header.command = EndHostCommand.downloadRequest.code then header.targetID :: later
        else later

-- What became of one `Send` on the socket of an end host.
structure Redirected where
  cloud : ℕ
  endHost : ℕ
  packet : Packet
  accepted : Bool
  deriving DecidableEq, Repr

/-- Sockets are numbers: those of the end hosts are given, a cloud socket is its place in
`m_socketList`.  No member keeps a packet between two events.  `endHosts`, `read` and `sends`
are not the program's: they record for whom each cloud socket was made, what was read from it
and what was sent. -/
structure Downloads where
  scheduled : List (ℕ × CybertwinId) := []
  lookups : List (ℕ × CybertwinId) := []
  socketList : List CybertwinInterface := []
  cloud2endSockMap : ℕ → Option ℕ := fun _ => none
  end2cloudSockMap : ℕ → Option ℕ := fun _ => none
  endHosts : List ℕ := []
  read : ℕ → Packet := fun _ => []
  sends : List Redirected := []

namespace Downloads

inductive Event
  | receive (endHost : ℕ) (packets : List Packet)
  | start
  | answer (endHost : ℕ) (targetID : CybertwinId) (targetInterfaces : CybertwinInterfaceList)
  | arrive (cloud : ℕ) (packets : List (Packet × Bool))
  deriving DecidableEq, Repr

def localRecvCallback (relay : Downloads) (endHost : ℕ) (packets : List Packet) :
    Option Downloads := do
  let targets ← Control.localRecvCallback packets
  return { relay with scheduled := relay.scheduled ++ targets.map fun target => (endHost, target) }

def startCybertwinDownloadProcess (relay : Downloads) : Option Downloads :=
  match relay.scheduled with
  | [] => none
  | request :: rest => some { relay with scheduled := rest, lookups := relay.lookups ++ [request] }

-- The answer is indexed without a look at its length.
def startDownloadProcess (relay : Downloads) (endHost : ℕ)
    (targetInterfaces : CybertwinInterfaceList) : Option Downloads := do
  let target ← targetInterfaces.head?
  let socket := relay.socketList.length
  return { relay with
    socketList := relay.socketList ++ [target]
    cloud2endSockMap := Function.update relay.cloud2endSockMap socket (some endHost)
    end2cloudSockMap := Function.update relay.end2cloudSockMap endHost (some socket)
    endHosts := relay.endHosts ++ [endHost] }

/-- Each packet comes with the answer of the end host's socket: it takes it whole or refuses it. -/
def downloadSocketRecvCallback (cloud : ℕ) : Downloads → List (Packet × Bool) → Option Downloads
  | relay, [] => some relay
  | relay, (packet, accepted) :: rest => do
      let endHost ← relay.cloud2endSockMap cloud
      downloadSocketRecvCallback cloud
        { relay with
          read := Function.update relay.read cloud (relay.read cloud ++ packet)
          sends := relay.sends ++ [{ cloud, endHost, packet, accepted }] } rest

def step (relay : Downloads) : Event → Option Downloads
  | .receive endHost packets => relay.localRecvCallback endHost packets
  | .start => relay.startCybertwinDownloadProcess
  | .answer endHost targetID targetInterfaces =>
      if (endHost, targetID) ∈ relay.lookups then
        { relay with lookups := relay.lookups.erase (endHost, targetID) }.startDownloadProcess
          endHost targetInterfaces
      else none
  | .arrive cloud packets =>
      if cloud < relay.socketList.length then downloadSocketRecvCallback cloud relay packets
      else none

-- What the socket of an end host accepted for a cloud socket.
def accepted (relay : Downloads) (endHost cloud : ℕ) : Packet :=
  relay.sends.flatMap fun send =>
    if send.cloud = cloud ∧ send.endHost = endHost ∧ send.accepted then send.packet else []

structure Intact (relay : Downloads) : Prop where
  bytes : ∀ cloud endHost, relay.endHosts[cloud]? = some endHost →
    relay.accepted endHost cloud = relay.read cloud
  apart : ∀ send ∈ relay.sends, relay.endHosts[send.cloud]? = some send.endHost

/-- Only packets without bytes are refused. -/
def Taken (_ : Downloads) : Event → Prop
  | .arrive _ packets => ∀ sent ∈ packets, sent.2 = true ∨ sent.1 = []
  | _ => True

instance (relay : Downloads) (event : Event) : Decidable (relay.Taken event) := by
  cases event <;> unfold Taken <;> infer_instance

/-- The map leads every cloud socket to the end host that it was made for. -/
structure Routed (relay : Downloads) : Prop where
  sockets : relay.endHosts.length = relay.socketList.length
  routes : ∀ cloud, relay.cloud2endSockMap cloud = relay.endHosts[cloud]?
  apart : ∀ send ∈ relay.sends, relay.endHosts[send.cloud]? = some send.endHost
  unread : ∀ cloud, relay.endHosts[cloud]? = none → relay.read cloud = []

def redirects (cloud endHost : ℕ) (packets : List (Packet × Bool)) : List Redirected :=
  packets.map fun sent => ⟨cloud, endHost, sent.1, sent.2⟩

theorem downloadSocketRecvCallback_eq {relay : Downloads} {cloud endHost : ℕ}
    (route : relay.cloud2endSockMap cloud = some endHost) (packets : List (Packet × Bool)) :
    downloadSocketRecvCallback cloud relay packets = some { relay with
      read := Function.update relay.read cloud (relay.read cloud ++ packets.flatMap Prod.fst)
      sends := relay.sends ++ redirects cloud endHost packets } := by
  induction packets generalizing relay with
  | nil => simp [downloadSocketRecvCallback, redirects]
  | cons sent rest ih =>
      obtain ⟨packet, accepted⟩ := sent
      simp only [downloadSocketRecvCallback, route, Option.bind_eq_bind, Option.bind_some]
      have later := @ih { relay with
        read := Function.update relay.read cloud (relay.read cloud ++ packet)
        sends := relay.sends ++ [⟨cloud, endHost, packet, accepted⟩] } route
      rw [later]
      simp [redirects]

theorem accepted_append (relay : Downloads) (more : List Redirected) (endHost cloud : ℕ) :
    accepted { relay with sends := relay.sends ++ more } endHost cloud =
      relay.accepted endHost cloud ++ accepted { sends := more } endHost cloud := by
  simp [accepted]

theorem accepted_same (cloud endHost : ℕ) (packets : List (Packet × Bool)) :
    accepted { sends := redirects cloud endHost packets } endHost cloud =
      packets.flatMap fun sent => if sent.2 then sent.1 else [] := by
  simp [accepted, redirects, List.flatMap_map]

theorem accepted_other {relay : Downloads} {endHost cloud : ℕ}
    (other : ∀ send ∈ relay.sends, send.cloud ≠ cloud) : relay.accepted endHost cloud = [] := by
  refine List.flatMap_eq_nil_iff.mpr fun send member => ?_
  rw [if_neg]
  exact fun all => other send member all.1

theorem taken_length_le (packets : List (Packet × Bool)) :
    (packets.flatMap fun sent => if sent.2 then sent.1 else []).length ≤
      (packets.flatMap Prod.fst).length := by
  induction packets with
  | nil => simp
  | cons sent rest ih =>
      simp only [List.flatMap_cons, List.length_append]
      split
      · omega
      · simp only [List.length_nil]
        omega

theorem taken_eq_iff (packets : List (Packet × Bool)) :
    (packets.flatMap fun sent => if sent.2 then sent.1 else []) = packets.flatMap Prod.fst ↔
      ∀ sent ∈ packets, sent.2 = true ∨ sent.1 = [] := by
  induction packets with
  | nil => simp
  | cons sent rest ih =>
      rw [List.flatMap_cons, List.flatMap_cons, List.forall_mem_cons, ← ih]
      have shorter := taken_length_le rest
      by_cases taken : sent.2 = true
      · simp [taken]
      · rw [if_neg taken, List.nil_append]
        constructor
        · intro same
          have lengths := congrArg List.length same
          rw [List.length_append] at lengths
          have empty : sent.1 = [] := List.eq_nil_of_length_eq_zero (by omega)
          rw [empty, List.nil_append] at same
          exact ⟨.inr empty, same⟩
        · rintro ⟨yes | empty, same⟩
          · exact absurd yes taken
          · rw [empty, List.nil_append, same]

theorem Routed.arrive {relay next : Downloads} {cloud : ℕ} {packets : List (Packet × Bool)}
    (routed : relay.Routed) (stepped : step relay (.arrive cloud packets) = some next) :
    ∃ endHost, relay.endHosts[cloud]? = some endHost ∧ next = { relay with
      read := Function.update relay.read cloud (relay.read cloud ++ packets.flatMap Prod.fst)
      sends := relay.sends ++ redirects cloud endHost packets } := by
  simp only [step] at stepped
  split at stepped
  · rename_i open_socket
    rw [← routed.sockets] at open_socket
    have held : relay.endHosts[cloud]? = some relay.endHosts[cloud] :=
      List.getElem?_eq_getElem open_socket
    rw [downloadSocketRecvCallback_eq ((routed.routes cloud).trans held)] at stepped
    exact ⟨_, held, (Option.some.inj stepped).symm⟩
  · cases stepped

theorem Routed.answer {relay next : Downloads} {endHost : ℕ} {targetID : CybertwinId}
    {targetInterfaces : CybertwinInterfaceList}
    (stepped : step relay (.answer endHost targetID targetInterfaces) = some next) :
    ∃ target, next = { relay with
      lookups := relay.lookups.erase (endHost, targetID)
      socketList := relay.socketList ++ [target]
      cloud2endSockMap :=
        Function.update relay.cloud2endSockMap relay.socketList.length (some endHost)
      end2cloudSockMap :=
        Function.update relay.end2cloudSockMap endHost (some relay.socketList.length)
      endHosts := relay.endHosts ++ [endHost] } := by
  simp only [step] at stepped
  split at stepped
  · obtain ⟨target, -, made⟩ := Option.bind_eq_some_iff.mp stepped
    exact ⟨target, (Option.some.inj made).symm⟩
  · cases stepped

theorem step_quiet {relay next : Downloads} {event : Event} (stepped : step relay event = some next)
    (receives : ∀ cloud packets, event ≠ .arrive cloud packets)
    (answers : ∀ endHost target interfaces, event ≠ .answer endHost target interfaces) :
    next = { relay with scheduled := next.scheduled, lookups := next.lookups } := by
  cases event with
  | receive endHost packets =>
      obtain ⟨targets, -, made⟩ := Option.bind_eq_some_iff.mp stepped
      rw [← Option.some.inj made]
  | start =>
      simp only [step, startCybertwinDownloadProcess] at stepped
      split at stepped
      · cases stepped
      · rw [← Option.some.inj stepped]
  | answer endHost target interfaces => exact absurd rfl (answers endHost target interfaces)
  | arrive cloud packets => exact absurd rfl (receives cloud packets)

theorem Routed.step {relay next : Downloads} {event : Event} (routed : relay.Routed)
    (stepped : step relay event = some next) : next.Routed := by
  by_cases arrives : ∃ cloud packets, event = .arrive cloud packets
  · obtain ⟨cloud, packets, rfl⟩ := arrives
    obtain ⟨endHost, held, rfl⟩ := routed.arrive stepped
    refine ⟨routed.sockets, routed.routes, ?_, ?_⟩
    · intro send member
      rcases List.mem_append.mp member with old | new
      · exact routed.apart send old
      · obtain ⟨sent, -, rfl⟩ := List.mem_map.mp new
        exact held
    · intro other missing
      have different : other ≠ cloud := by
        rintro rfl
        cases held.symm.trans missing
      simp only [Function.update_of_ne different]
      exact routed.unread other missing
  by_cases answers : ∃ endHost target interfaces, event = .answer endHost target interfaces
  · obtain ⟨endHost, target, interfaces, rfl⟩ := answers
    obtain ⟨address, rfl⟩ := Routed.answer stepped
    refine ⟨?_, ?_, ?_, ?_⟩
    · simp [routed.sockets]
    · intro cloud
      change Function.update relay.cloud2endSockMap _ _ cloud = (relay.endHosts ++ [endHost])[cloud]?
      by_cases same : cloud = relay.socketList.length
      · subst same
        rw [Function.update_self, ← routed.sockets, List.getElem?_concat_length]
      · rw [Function.update_of_ne same, routed.routes]
        by_cases old : cloud < relay.endHosts.length
        · rw [List.getElem?_append_left old]
        · have := routed.sockets
          rw [List.getElem?_eq_none (by omega), List.getElem?_eq_none]
          simp only [List.length_append, List.length_singleton]
          omega
    · intro send member
      have known := routed.apart send member
      obtain ⟨inside, -⟩ := List.getElem?_eq_some_iff.mp known
      exact (List.getElem?_append_left inside).trans known
    · intro cloud missing
      refine routed.unread cloud (List.getElem?_eq_none ?_)
      have := List.getElem?_eq_none_iff.mp missing
      simp only [List.length_append] at this
      omega
  · have quiet := step_quiet stepped
      (fun cloud packets same => arrives ⟨cloud, packets, same⟩)
      (fun endHost target interfaces same => answers ⟨endHost, target, interfaces, same⟩)
    rw [quiet]
    exact ⟨routed.sockets, routed.routes, routed.apart, routed.unread⟩

theorem Routed.accepted_fresh {relay : Downloads} (routed : relay.Routed) {endHost cloud : ℕ}
    (missing : relay.endHosts[cloud]? = none) : relay.accepted endHost cloud = [] := by
  refine accepted_other fun send member same => ?_
  have known := routed.apart send member
  rw [same, missing] at known
  cases known

theorem Routed.intact_iff {relay next : Downloads} {event : Event} (routed : relay.Routed)
    (intact : relay.Intact) (stepped : Downloads.step relay event = some next) :
    next.Intact ↔ relay.Taken event := by
  have later := routed.step stepped
  cases event with
  | arrive cloud packets =>
      obtain ⟨endHost, held, rfl⟩ := routed.arrive stepped
      have same : ∀ cloud' endHost', relay.endHosts[cloud']? = some endHost' →
          (accepted { relay with sends := relay.sends ++ redirects cloud endHost packets } endHost' cloud' =
            Function.update relay.read cloud (relay.read cloud ++ packets.flatMap Prod.fst) cloud' ↔
          (cloud' = cloud → (packets.flatMap fun sent => if sent.2 then sent.1 else []) =
            packets.flatMap Prod.fst)) := by
        intro cloud' endHost' known
        rw [accepted_append, intact.bytes cloud' endHost' known]
        by_cases same : cloud' = cloud
        · subst same
          cases Option.some.inj (held.symm.trans known)
          rw [accepted_same, Function.update_self, List.append_right_inj]
          simp
        · rw [Function.update_of_ne same, accepted_other, List.append_nil]
          · simp [same]
          · intro send member
            obtain ⟨sent, -, rfl⟩ := List.mem_map.mp member
            exact Ne.symm same
      refine Iff.trans ?_ (taken_eq_iff packets)
      constructor
      · exact fun whole => (same cloud endHost held).mp (whole.bytes cloud endHost held) rfl
      · intro all
        exact ⟨fun cloud' endHost' known => (same cloud' endHost' known).mpr fun _ => all,
          later.apart⟩
  | answer endHost target interfaces =>
      obtain ⟨address, rfl⟩ := Routed.answer stepped
      refine iff_of_true ⟨?_, later.apart⟩ trivial
      intro cloud other known
      change relay.accepted other cloud = relay.read cloud
      cases old : relay.endHosts[cloud]? with
      | none => rw [routed.accepted_fresh old, routed.unread cloud old]
      | some owner =>
          obtain ⟨inside, -⟩ := List.getElem?_eq_some_iff.mp old
          have kept : relay.endHosts[cloud]? = some other :=
            (List.getElem?_append_left inside).symm.trans known
          exact intact.bytes cloud other kept
  | receive endHost packets =>
      have quiet := step_quiet stepped (fun _ _ => nofun) (fun _ _ _ => nofun)
      rw [quiet]
      exact iff_of_true ⟨intact.bytes, intact.apart⟩ trivial
  | start =>
      have quiet := step_quiet stepped (fun _ _ => nofun) (fun _ _ _ => nofun)
      rw [quiet]
      exact iff_of_true ⟨intact.bytes, intact.apart⟩ trivial

theorem relayed_iff (events : List Event) (ran : (run step {} events).isSome) :
    Throughout step Intact {} events ↔ Guarded step Taken {} events := by
  have keeps : ∀ relay event next, relay.Routed ∧ relay.Intact → relay.Taken event →
      step relay event = some next → next.Routed ∧ next.Intact :=
    fun _ _ _ kept taken stepped =>
      ⟨kept.1.step stepped, (kept.1.intact_iff kept.2 stepped).mpr taken⟩
  refine throughout_iff_guarded_of (fun _ kept => kept.2) keeps ?_ ?_ ran
  · exact fun _ _ _ kept stepped intact => (kept.1.intact_iff kept.2 stepped).mp intact
  · refine ⟨⟨rfl, ?_, ?_, ?_⟩, ⟨?_, ?_⟩⟩
    · exact fun _ => rfl
    · exact fun _ member => absurd member List.not_mem_nil
    · exact fun _ _ => rfl
    · exact fun _ _ known => by cases known
    · exact fun _ member => absurd member List.not_mem_nil

def request (targetID : CybertwinId) : Packet :=
  EndHostHeader.serialize { command := EndHostCommand.downloadRequest.code, targetID }

theorem relayed_two : Throughout step Intact {}
    [.receive 3 [request 7], .receive 4 [request 8], .start, .start, .answer 4 8 [(10, 80)],
      .answer 3 7 [(11, 80)], .arrive 0 [([1, 2], true)], .arrive 1 [([3], true), ([4], true)],
      .arrive 0 [([5], true)]] :=
  (relayed_iff _ (by decide)).mpr (by decide)

theorem refused_lost :
    ¬ Throughout step Intact {}
      [.receive 3 [request 7], .start, .answer 3 7 [(10, 80)], .arrive 0 [([1, 2], false)]] := by
  intro whole
  have last : ∃ relay, run step {} [.receive 3 [request 7], .start, .answer 3 7 [(10, 80)],
      .arrive 0 [([1, 2], false)]] = some relay ∧ relay.endHosts[0]? = some 3 ∧
      relay.accepted 3 0 = [] ∧ relay.read 0 = [1, 2] := ⟨_, rfl, rfl, rfl, rfl⟩
  obtain ⟨relay, ran, made, nothing, read⟩ := last
  have bytes := (whole _ [] relay (List.append_nil _).symm ran).bytes 0 3 made
  rw [nothing, read] at bytes
  cases bytes

end Downloads

end FISim.Control
