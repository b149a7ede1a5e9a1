import FISim.Header
import Mathlib.Data.UInt

/-!
`SinglePath`: one TCP connection of a multipath connection.  A handler of the
state machine takes the chunks that successive `RecvFrom` calls return until
the socket is empty, and gives back the path with the events that it schedules.
-/

namespace FISim

inductive PathStatus
  | init
  | ready
  | listen
  | buildSent
  | joinSent
  | connected
  | closed
  | error
  deriving DecidableEq, Repr

structure SinglePath where
  pathId : MpPathId := 0
  hasSocket : Bool := false
  localKey : MpConnKey := 0
  remoteKey : MpConnKey := 0
  localCybertwinID : CybertwinId := 0
  remoteCybertwinID : CybertwinId := 0
  connection : Option ℕ := none
  pathState : PathStatus := .init
  connID : MpConnId := 0
  rxBuffer : List Packet := []
  txTotalBytes : UInt64 := 0
  rxTotalBytes : UInt64 := 0
  deriving DecidableEq, Repr

/-- What a path schedules on its connection for the next time step. -/
inductive PathEvent
  | addInitConnectPath
  | pathJoinResult (success : Bool)
  | pathRecvedData
  deriving DecidableEq, Repr

/-- A socket takes the whole packet, or refuses it with a result that is not positive. -/
inductive SocketAnswer
  | accepted
  | refused (result : Int32) (notPositive : result ≤ 0)
  deriving DecidableEq

def SocketAnswer.result (packet : Packet) : SocketAnswer → Int32
  | accepted => (getSize packet).toInt32
  | refused result _ => result

def SocketAnswer.taken (packet : Packet) : SocketAnswer → List Packet
  | accepted => [packet]
  | refused _ _ => []

def peekMultipathHeader (packet : Packet) : Option MultipathHeader :=
  (MultipathHeader.deserialize packet).map Prod.fst

def peekMultipathHeaderDSN (packet : Packet) : Option MultipathHeaderDSN :=
  (MultipathHeaderDSN.deserialize packet).map Prod.fst

theorem peekMultipathHeader_serialize (header : MultipathHeader) :
    peekMultipathHeader header.serialize = some header := by
  have found := header.reads []
  rw [List.append_nil] at found
  rw [peekMultipathHeader, found]
  rfl

theorem peekMultipathHeaderDSN_serialize (header : MultipathHeaderDSN) (payload : Packet) :
    peekMultipathHeaderDSN (header.serialize ++ payload) = some header := by
  rw [peekMultipathHeaderDSN, header.reads payload]
  rfl

theorem peekMultipathHeaderDSN_isSome (packet : Packet) :
    (peekMultipathHeaderDSN packet).isSome ↔ 20 ≤ packet.length := by
  rw [peekMultipathHeaderDSN, Option.isSome_map]
  exact MultipathHeaderDSN.takes.isSome_iff packet

namespace SinglePath

def payloadBytes (packets : List Packet) : UInt64 :=
  (packets.map fun packet => (getSize packet - 20).toUInt64).sum

theorem payloadBytes_append (first second : List Packet) :
    payloadBytes (first ++ second) = payloadBytes first + payloadBytes second := by
  induction first with
  | nil => simp [payloadBytes]
  | cons packet first ih =>
      simp only [payloadBytes, List.cons_append, List.map_cons, List.sum_cons] at ih ⊢
      rw [ih, UInt64.add_assoc]

structure Sent where
  path : SinglePath
  result : Int32
  taken : List Packet

def send (path : SinglePath) (pkt : Packet) (answer : SocketAnswer) : Sent :=
  if path.hasSocket = false then { path, result := -1, taken := [] }
  else if path.pathState ≠ .connected then { path, result := -1, taken := [] }
  else
    let ret := answer.result pkt
    let path := if ret ≤ 0 then path else
      { path with txTotalBytes := path.txTotalBytes + ret.toInt64.toUInt64 }
    { path, result := ret, taken := answer.taken pkt }

def usable (path : SinglePath) : Bool := path.hasSocket && path.pathState = .connected

theorem send_taken (path : SinglePath) (pkt : Packet) (answer : SocketAnswer) :
    (path.send pkt answer).taken = if path.usable then answer.taken pkt else [] := by
  cases socket : path.hasSocket with
  | false => simp [send, usable, socket]
  | true =>
      by_cases connected : path.pathState = .connected
      · simp [send, usable, socket, connected]
      · simp [send, usable, socket, connected]

theorem send_path (path : SinglePath) (pkt : Packet) (answer : SocketAnswer) :
    ∃ bytes, (path.send pkt answer).path = { path with txTotalBytes := bytes } := by
  unfold send
  split
  · exact ⟨path.txTotalBytes, rfl⟩
  · split
    · exact ⟨path.txTotalBytes, rfl⟩
    · dsimp only
      split
      · exact ⟨path.txTotalBytes, rfl⟩
      · exact ⟨_, rfl⟩

-- `none` inside the result is the null packet of an empty buffer.
def recv (path : SinglePath) : Option (Option Packet × SinglePath) :=
  match path.rxBuffer with
  | [] => some (none, path)
  | packet :: rest => do
      let pktHeader ← peekMultipathHeaderDSN packet
      return (some (packet.drop pktHeader.getSerializedSize), { path with rxBuffer := rest })

def headPacketSeqNum (path : SinglePath) : Option MpDataSeqNum :=
  match path.rxBuffer with
  | [] => some 0
  | packet :: _ => do
      let header ← peekMultipathHeaderDSN packet
      return header.dataSeqNum

-- Both callbacks report to `AddRawPath` of the connection.
def pathConnectSucceeded (path : SinglePath) : SinglePath := { path with pathState := .ready }

def pathConnectFailed (path : SinglePath) : SinglePath := { path with pathState := .error }

def initConnection (path : SinglePath) : SinglePath × Packet :=
  let connHeader : MultipathHeader :=
    { pathId := path.pathId, cuid := path.localCybertwinID, senderKey := path.localKey,
      recverKey := 0, connId := 0 }
  ({ path with pathState := .buildSent }, connHeader.serialize)

def joinConnection (path : SinglePath) : SinglePath × Packet :=
  let connHeader : MultipathHeader :=
    { pathId := path.pathId, cuid := path.localCybertwinID, senderKey := path.localKey,
      recverKey := path.remoteKey, connId := path.connID }
  ({ path with pathState := .joinSent }, connHeader.serialize)

def buildSentLoop (path : SinglePath) : List Packet → Option SinglePath
  | [] => some path
  | packet :: rest => do
      let rcvHeader ← peekMultipathHeader packet
      if rcvHeader.getSerializedSize = 0 then buildSentLoop path rest
      else if rcvHeader.connId ≠ 0 ∧ rcvHeader.senderKey ≠ 0 then
        buildSentLoop { path with
          connID := rcvHeader.connId, remoteKey := rcvHeader.senderKey,
          pathState := .connected } rest
      else none

def processBuildSent (path : SinglePath) (packets : List Packet) :
    Option (SinglePath × List PathEvent) := do
  let path ← buildSentLoop path packets
  if path.pathState = .connected then return (path, [.addInitConnectPath])
  else return (path, [])

def pushReceived (path : SinglePath) (packet : Packet) : Option SinglePath := do
  let dsnHeader ← peekMultipathHeaderDSN packet
  return { path with
    rxBuffer := path.rxBuffer ++ [packet],
    rxTotalBytes := path.rxTotalBytes +
      (getSize packet - UInt32.ofNat dsnHeader.getSerializedSize).toUInt64 }

def processConnected (path : SinglePath) (packets : List Packet) :
    Option (SinglePath × List PathEvent) := do
  let path ← packets.foldlM pushReceived path
  return (path, [.pathRecvedData])

theorem pushReceived_eq (path : SinglePath) (packet : Packet) :
    path.pushReceived packet =
      if 20 ≤ packet.length then some { path with
        rxBuffer := path.rxBuffer ++ [packet],
        rxTotalBytes := path.rxTotalBytes + (getSize packet - 20).toUInt64 }
      else none := by
  by_cases long : 20 ≤ packet.length
  · obtain ⟨header, found⟩ :=
      Option.isSome_iff_exists.mp ((peekMultipathHeaderDSN_isSome packet).mpr long)
    simp only [pushReceived, found, long, if_true, MultipathHeaderDSN.getSerializedSize]
    rfl
  · have missing : peekMultipathHeaderDSN packet = none := by
      rw [← Option.not_isSome_iff_eq_none, peekMultipathHeaderDSN_isSome]
      exact long
    simp only [pushReceived, missing, long, if_false]
    rfl

theorem foldlM_pushReceived (packets : List Packet) (path : SinglePath)
    (long : ∀ packet ∈ packets, 20 ≤ packet.length) :
    packets.foldlM pushReceived path = some { path with
      rxBuffer := path.rxBuffer ++ packets,
      rxTotalBytes := path.rxTotalBytes + payloadBytes packets } := by
  induction packets generalizing path with
  | nil => simp [payloadBytes]
  | cons packet rest ih =>
      have first : 20 ≤ packet.length := long packet (by simp)
      rw [List.foldlM_cons, pushReceived_eq, if_pos first, Option.bind_eq_bind, Option.bind_some,
        ih _ fun other member => long other (by simp [member])]
      simp [payloadBytes, UInt64.add_assoc]

theorem foldlM_pushReceived_isSome (packets : List Packet) (path : SinglePath) :
    (packets.foldlM pushReceived path).isSome ↔ ∀ packet ∈ packets, 20 ≤ packet.length := by
  induction packets generalizing path with
  | nil => simp
  | cons packet rest ih =>
      rw [List.foldlM_cons, pushReceived_eq]
      by_cases long : 20 ≤ packet.length
      · simp [long, ih]
      · simp [long]

theorem processConnected_cases {packets : List Packet} {path after : SinglePath}
    {events : List PathEvent} (processed : path.processConnected packets = some (after, events)) :
    (∀ packet ∈ packets, 20 ≤ packet.length) ∧ events = [.pathRecvedData] ∧
      after = { path with
        rxBuffer := path.rxBuffer ++ packets,
        rxTotalBytes := path.rxTotalBytes + payloadBytes packets } := by
  obtain ⟨pushed, happened, result⟩ := Option.bind_eq_some_iff.mp processed
  simp only [Option.pure_def, Option.some.injEq, Prod.mk.injEq] at result
  obtain ⟨rfl, rfl⟩ := result
  have long := (foldlM_pushReceived_isSome packets path).mp (by rw [happened]; rfl)
  rw [foldlM_pushReceived packets path long, Option.some.injEq] at happened
  exact ⟨long, rfl, happened.symm⟩

theorem buildSentLoop_cons (path : SinglePath) (packet : Packet) (rest : List Packet) :
    buildSentLoop path (packet :: rest) =
      (peekMultipathHeader packet).bind fun rcvHeader =>
        if rcvHeader.connId ≠ 0 ∧ rcvHeader.senderKey ≠ 0 then
          buildSentLoop { path with
            connID := rcvHeader.connId, remoteKey := rcvHeader.senderKey,
            pathState := .connected } rest
        else none := by
  rfl

theorem buildSentLoop_rxBuffer {packets : List Packet} {path after : SinglePath}
    (looped : buildSentLoop path packets = some after) : after.rxBuffer = path.rxBuffer := by
  induction packets generalizing path with
  | nil =>
      simp only [buildSentLoop, Option.some.injEq] at looped
      rw [looped]
  | cons packet rest ih =>
      rw [buildSentLoop_cons] at looped
      obtain ⟨rcvHeader, _, looped⟩ := Option.bind_eq_some_iff.mp looped
      split at looped
      · have kept := ih looped
        exact kept
      · simp at looped

theorem buildSentLoop_connected {packets : List Packet} {path after : SinglePath}
    (looped : buildSentLoop path packets = some after)
    (started : path.pathState = .connected ∨ packets ≠ []) : after.pathState = .connected := by
  induction packets generalizing path with
  | nil =>
      simp only [buildSentLoop, Option.some.injEq] at looped
      subst looped
      simpa using started
  | cons packet rest ih =>
      rw [buildSentLoop_cons] at looped
      obtain ⟨rcvHeader, _, looped⟩ := Option.bind_eq_some_iff.mp looped
      split at looped
      · exact ih looped (Or.inl rfl)
      · simp at looped

def processJoinSent (path : SinglePath) : List Packet → Option (SinglePath × List PathEvent)
  | [] => some (path, [])
  | packet :: rest => do
      let recvHeader ← peekMultipathHeader packet
      if recvHeader.getSerializedSize = 0 then processJoinSent path rest
      else
        let joinResult := recvHeader.connId = path.connID
        let (path, events) ← processJoinSent
          { path with pathState := if joinResult then .connected else .error } rest
        return (path, .pathJoinResult joinResult :: events)

theorem processJoinSent_cons (path : SinglePath) (packet : Packet) (rest : List Packet) :
    processJoinSent path (packet :: rest) =
      (peekMultipathHeader packet).bind fun recvHeader =>
        (processJoinSent { path with
          pathState := if recvHeader.connId = path.connID then .connected else .error } rest).bind
          fun later => some (later.1, .pathJoinResult (recvHeader.connId = path.connID) :: later.2) := by
  rfl

theorem processJoinSent_events {packets : List Packet} {path after : SinglePath}
    {events : List PathEvent} (processed : processJoinSent path packets = some (after, events)) :
    events.length = packets.length ∧ .pathRecvedData ∉ events := by
  induction packets generalizing path after events with
  | nil =>
      simp only [processJoinSent, Option.some.injEq, Prod.mk.injEq] at processed
      simp [← processed.2]
  | cons packet rest ih =>
      rw [processJoinSent_cons] at processed
      obtain ⟨recvHeader, _, processed⟩ := Option.bind_eq_some_iff.mp processed
      obtain ⟨later, loop, result⟩ := Option.bind_eq_some_iff.mp processed
      simp only [Option.some.injEq, Prod.mk.injEq] at result
      obtain ⟨size, clean⟩ := ih loop
      rw [← result.2]
      simp [size, clean]

theorem processJoinSent_settled {packets : List Packet} {path after : SinglePath}
    {events : List PathEvent} (processed : processJoinSent path packets = some (after, events))
    (started : path.pathState = .connected ∨ path.pathState = .error ∨ packets ≠ []) :
    after.pathState = .connected ∨ after.pathState = .error := by
  induction packets generalizing path after events with
  | nil =>
      simp only [processJoinSent, Option.some.injEq, Prod.mk.injEq] at processed
      rw [← processed.1]
      simpa using started
  | cons packet rest ih =>
      rw [processJoinSent_cons] at processed
      obtain ⟨recvHeader, _, processed⟩ := Option.bind_eq_some_iff.mp processed
      obtain ⟨later, loop, result⟩ := Option.bind_eq_some_iff.mp processed
      simp only [Option.some.injEq, Prod.mk.injEq] at result
      rw [← result.1]
      refine ih loop ?_
      by_cases same : recvHeader.connId = path.connID
      · simp [same]
      · simp [same]

end SinglePath

end FISim
