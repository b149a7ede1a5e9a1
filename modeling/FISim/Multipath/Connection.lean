import FISim.Multipath.SinglePath
import Mathlib.Logic.Function.Basic

/-!
`MultipathConnection`.  A connection holds pointers to its paths; `Path` is the
type of these pointers, and a function from them to paths is the memory they
point into.
-/

namespace FISim

inductive MpConnState
  | init
  | bind
  | send
  | connect
  | closing
  | closed
  deriving DecidableEq, Repr

structure MultipathConnection (Path : Type) where
  connID : MpConnId := 0
  connState : MpConnState := .init
  localKey : MpConnKey := 0
  remoteKey : MpConnKey := 0
  localCyberID : CybertwinId := 0
  peerCyberID : CybertwinId := 0
  paths : List Path := []
  lastPathIndex : Int32 := 0
  sendSeqNum : MpDataSeqNum := 0
  txBuffer : List Packet := []
  recvSeqNum : MpDataSeqNum := 0
  rxBuffer : List Packet := []
  readyPath : List Path := []
  errorPath : List Path := []
  pathNum : ℕ := 0
  rawReadyPath : List Path := []
  rawFailPath : List Path := []
  txTotalBytes : UInt64 := 0
  rxTotalBytes : UInt64 := 0
  deriving DecidableEq, Repr

namespace MultipathConnection

variable {Path : Type}

def MULTIPATH_MAXSENT_PACKET_ONCE : ℕ := 100

/-- The constructor from a connected path of a server. -/
def ofPath (pointer : Path) (path : SinglePath) : Option (MultipathConnection Path) :=
  if path.pathState = .connected then
    some {
      localCyberID := path.localCybertwinID
      peerCyberID := path.remoteCybertwinID
      localKey := path.localKey
      connID := path.connID
      sendSeqNum := path.connID
      recvSeqNum := path.connID
      connState := .connect
      pathNum := 0
      paths := [pointer] }
  else none

structure SendResult (Path : Type) where
  conn : MultipathConnection Path
  result : Int32
  scheduled : Bool

def dsnPacket (conn : MultipathConnection Path) (packet : Packet) : Packet :=
  let header : MultipathHeaderDSN :=
    { cuid := conn.localCyberID, dataSeqNum := conn.sendSeqNum,
      dataLen := (getSize packet).toInt32.toUInt32 }
  header.serialize ++ packet

def send (conn : MultipathConnection Path) (packet : Packet) : SendResult Path :=
  let pktSize := (getSize packet).toInt32
  if pktSize = 0 then { conn, result := 0, scheduled := false }
  else
    { conn := { conn with
        sendSeqNum := conn.sendSeqNum + pktSize.toInt64.toUInt64,
        txBuffer := conn.txBuffer ++ [conn.dsnPacket packet] },
      result := pktSize, scheduled := true }

theorem toInt32_eq_zero (size : UInt32) : size.toInt32 = 0 ↔ size = 0 := by
  constructor
  · intro zero
    exact congrArg Int32.toUInt32 zero
  · rintro rfl
    rfl

theorem send_empty (conn : MultipathConnection Path) {packet : Packet}
    (empty : getSize packet = 0) :
    conn.send packet = { conn, result := 0, scheduled := false } :=
  if_pos ((toInt32_eq_zero _).mpr empty)

theorem send_filled (conn : MultipathConnection Path) {packet : Packet}
    (filled : getSize packet ≠ 0) :
    conn.send packet = {
      conn := { conn with
        sendSeqNum := conn.sendSeqNum + (getSize packet).toInt32.toInt64.toUInt64,
        txBuffer := conn.txBuffer ++ [conn.dsnPacket packet] },
      result := (getSize packet).toInt32, scheduled := true } :=
  if_neg ((toInt32_eq_zero _).not.mpr filled)

-- The source's loop has no exit but a connected path.  Two rounds see every path.
def choosePathLoop (conn : MultipathConnection Path) (memory : Path → SinglePath) :
    ℕ → Int32 → Option (Path × Int32)
  | 0, _ => none
  | rounds + 1, lastPathIndex =>
      let idx := lastPathIndex.toInt64.toUInt64.toNat % conn.paths.length
      match conn.paths[idx]? with
      | none => none
      | some pointer =>
          if (memory pointer).pathState = .connected then some (pointer, lastPathIndex + 1)
          else choosePathLoop conn memory rounds (lastPathIndex + 1)

def choosePathRoundRobin (conn : MultipathConnection Path) (memory : Path → SinglePath) :
    Option (Path × MultipathConnection Path) := do
  let (pointer, lastPathIndex) ←
    choosePathLoop conn memory (2 * conn.paths.length) conn.lastPathIndex
  return (pointer, { conn with lastPathIndex })

theorem choosePathLoop_connected {conn : MultipathConnection Path} {memory : Path → SinglePath}
    {rounds : ℕ} {lastPathIndex found : Int32} {pointer : Path}
    (chosen : choosePathLoop conn memory rounds lastPathIndex = some (pointer, found)) :
    (memory pointer).pathState = .connected := by
  induction rounds generalizing lastPathIndex with
  | zero => simp [choosePathLoop] at chosen
  | succ rounds ih =>
      simp only [choosePathLoop] at chosen
      split at chosen
      · simp at chosen
      · split at chosen
        · rename_i connected
          simp only [Option.some.injEq, Prod.mk.injEq] at chosen
          rw [← chosen.1]
          exact connected
        · exact ih chosen

theorem choosePathRoundRobin_connected {conn after : MultipathConnection Path}
    {memory : Path → SinglePath} {pointer : Path}
    (chosen : conn.choosePathRoundRobin memory = some (pointer, after)) :
    (memory pointer).pathState = .connected := by
  obtain ⟨⟨found, lastPathIndex⟩, searched, result⟩ := Option.bind_eq_some_iff.mp chosen
  simp only [Option.pure_def, Option.some.injEq, Prod.mk.injEq] at result
  rw [← result.1]
  exact choosePathLoop_connected searched

structure Burst (Path : Type) where
  conn : MultipathConnection Path
  path : SinglePath
  taken : List Packet

-- One turn of the loop of `SendData`; the number is the source's `counter`.
def sendFront (answer : ℕ → SocketAnswer) (counter : ℕ) (burst : Burst Path) (pkt : Packet)
    (rest : List Packet) : Burst Path :=
  let sent := burst.path.send pkt (answer counter)
  let header : MultipathHeaderDSN := {}
  { conn := { burst.conn with
      txBuffer := rest,
      txTotalBytes := burst.conn.txTotalBytes +
        (getSize pkt - UInt32.ofNat header.getSerializedSize).toUInt64 },
    path := sent.path,
    taken := burst.taken ++ sent.taken }

def sendDataLoop (answer : ℕ → SocketAnswer) : ℕ → ℕ → Burst Path → Burst Path
  | 0, _, burst => burst
  | remaining + 1, counter, burst =>
      match burst.conn.txBuffer with
      | [] => burst
      | pkt :: rest =>
          sendDataLoop answer remaining (counter + 1) (sendFront answer counter burst pkt rest)

def takenFrom (usable : Bool) (answer : ℕ → SocketAnswer) : ℕ → List Packet → List Packet
  | _, [] => []
  | counter, pkt :: rest =>
      (if usable then (answer counter).taken pkt else []) ++
        takenFrom usable answer (counter + 1) rest

/-- The burst loop takes its packets out of the buffer and counts them, whatever the socket
answers; what the socket takes depends on its answers alone. -/
theorem sendDataLoop_eq (answer : ℕ → SocketAnswer) (remaining counter : ℕ)
    (burst : Burst Path) :
    ∃ bytes, sendDataLoop answer remaining counter burst =
      { conn := { burst.conn with
          txBuffer := burst.conn.txBuffer.drop remaining,
          txTotalBytes := burst.conn.txTotalBytes +
            SinglePath.payloadBytes (burst.conn.txBuffer.take remaining) },
        path := { burst.path with txTotalBytes := bytes },
        taken := burst.taken ++
          takenFrom burst.path.usable answer counter (burst.conn.txBuffer.take remaining) } := by
  induction remaining generalizing counter burst with
  | zero => exact ⟨burst.path.txTotalBytes, by simp [sendDataLoop, takenFrom, SinglePath.payloadBytes]⟩
  | succ remaining ih =>
      cases buffer : burst.conn.txBuffer with
      | nil =>
          refine ⟨burst.path.txTotalBytes, ?_⟩
          simp only [sendDataLoop, buffer, List.take_nil, List.drop_nil, takenFrom,
            List.append_nil, SinglePath.payloadBytes, List.map_nil, List.sum_nil, UInt64.add_zero]
          rw [← buffer]
      | cons pkt rest =>
          obtain ⟨sentBytes, sentPath⟩ := burst.path.send_path pkt (answer counter)
          obtain ⟨bytes, later⟩ := ih (counter + 1) (sendFront answer counter burst pkt rest)
          refine ⟨bytes, ?_⟩
          simp only [sendDataLoop, buffer, later]
          simp [sendFront, sentPath, SinglePath.send_taken, takenFrom, SinglePath.usable,
            SinglePath.payloadBytes, MultipathHeaderDSN.getSerializedSize, UInt64.add_assoc]

theorem takenFrom_length_le (usable : Bool) (answer : ℕ → SocketAnswer) (counter : ℕ)
    (packets : List Packet) : (takenFrom usable answer counter packets).length ≤ packets.length := by
  induction packets generalizing counter with
  | nil => simp [takenFrom]
  | cons pkt rest ih =>
      have later := ih (counter + 1)
      have first : (if usable then (answer counter).taken pkt else []).length ≤ 1 := by
        cases usable with
        | false => simp
        | true => cases answer counter <;> simp [SocketAnswer.taken]
      rw [takenFrom, List.length_append, List.length_cons]
      omega

theorem takenFrom_accepted {usable : Bool} {answer : ℕ → SocketAnswer} {counter : ℕ}
    {packets : List Packet}
    (accepted : ∀ index < packets.length, usable = true ∧ answer (counter + index) = .accepted) :
    takenFrom usable answer counter packets = packets := by
  induction packets generalizing counter with
  | nil => rfl
  | cons pkt rest ih =>
      obtain ⟨open_, first⟩ := accepted 0 (by simp)
      rw [Nat.add_zero] at first
      rw [takenFrom, ih, open_, first]
      · rfl
      · intro index bound
        have next := accepted (index + 1) (by simpa using bound)
        rwa [Nat.add_comm index, ← Nat.add_assoc] at next

theorem takenFrom_length_iff (usable : Bool) (answer : ℕ → SocketAnswer) (counter : ℕ)
    (packets : List Packet) :
    (takenFrom usable answer counter packets).length = packets.length ↔
      ∀ index < packets.length, usable = true ∧ answer (counter + index) = .accepted := by
  constructor
  · induction packets generalizing counter with
    | nil => simp
    | cons pkt rest ih =>
        intro kept index bound
        have later := takenFrom_length_le usable answer (counter + 1) rest
        rw [takenFrom, List.length_append, List.length_cons] at kept
        have first : (if usable then (answer counter).taken pkt else []).length ≤ 1 ∧
            ((if usable then (answer counter).taken pkt else []).length = 1 →
              usable = true ∧ answer counter = .accepted) := by
          cases usable with
          | false => simp
          | true => cases answer counter <;> simp [SocketAnswer.taken]
        cases index with
        | zero => exact first.2 (by omega)
        | succ index =>
            have next := ih (counter + 1) (by omega) index (by simpa using bound)
            rwa [Nat.add_assoc, Nat.add_comm 1] at next
  · intro accepted
    rw [takenFrom_accepted accepted]

structure SendDataResult (Path : Type) where
  conn : MultipathConnection Path
  memory : Path → SinglePath
  taken : List (Path × Packet)

/-- `SendData`, with the answers that the chosen path's socket gives to the packets of the
burst, and the packets that this socket takes. -/
def sendData [DecidableEq Path] (conn : MultipathConnection Path) (memory : Path → SinglePath)
    (answer : ℕ → SocketAnswer) : Option (SendDataResult Path) :=
  if conn.txBuffer = [] then some { conn, memory, taken := [] }
  else do
    let (pointer, conn) ← conn.choosePathRoundRobin memory
    let burst := sendDataLoop answer MULTIPATH_MAXSENT_PACKET_ONCE 0
      { conn, path := memory pointer, taken := [] }
    return {
      conn := burst.conn
      memory := Function.update memory pointer burst.path
      taken := burst.taken.map fun pkt => (pointer, pkt) }

theorem sendData_cases [DecidableEq Path] {conn : MultipathConnection Path}
    {memory : Path → SinglePath} {answer : ℕ → SocketAnswer} {ran : SendDataResult Path}
    (happened : conn.sendData memory answer = some ran) :
    conn.txBuffer = [] ∧ ran = { conn, memory, taken := [] } ∨
      conn.txBuffer ≠ [] ∧ ∃ pointer lastPathIndex bytes,
        conn.choosePathRoundRobin memory = some (pointer, { conn with lastPathIndex }) ∧
        ran = {
          conn := { conn with
            lastPathIndex,
            txBuffer := conn.txBuffer.drop MULTIPATH_MAXSENT_PACKET_ONCE,
            txTotalBytes := conn.txTotalBytes +
              SinglePath.payloadBytes (conn.txBuffer.take MULTIPATH_MAXSENT_PACKET_ONCE) },
          memory := Function.update memory pointer { memory pointer with txTotalBytes := bytes },
          taken := (takenFrom (memory pointer).usable answer 0
            (conn.txBuffer.take MULTIPATH_MAXSENT_PACKET_ONCE)).map fun pkt => (pointer, pkt) } := by
  unfold sendData at happened
  split at happened
  · rename_i empty
    exact Or.inl ⟨empty, (Option.some.inj happened).symm⟩
  · rename_i filled
    obtain ⟨⟨pointer, chosen⟩, choice, rest⟩ := Option.bind_eq_some_iff.mp happened
    obtain ⟨⟨found, lastPathIndex⟩, searched, result⟩ := Option.bind_eq_some_iff.mp choice
    simp only [Option.pure_def, Option.some.injEq, Prod.mk.injEq] at result
    obtain ⟨rfl, rfl⟩ := result
    obtain ⟨bytes, looped⟩ := sendDataLoop_eq answer MULTIPATH_MAXSENT_PACKET_ONCE 0
      { conn := { conn with lastPathIndex }, path := memory found, taken := [] }
    refine Or.inr ⟨filled, found, lastPathIndex, bytes, choice, ?_⟩
    rw [← Option.some.inj rest]
    simp only [looped, List.nil_append]

def recv (conn : MultipathConnection Path) : Option Packet × MultipathConnection Path :=
  match conn.rxBuffer with
  | [] => (none, conn)
  | pack :: rest => (some pack, { conn with rxBuffer := rest })

def pushReceived (conn : MultipathConnection Path) (pack : Packet) : MultipathConnection Path :=
  { conn with
    rxBuffer := conn.rxBuffer ++ [pack],
    recvSeqNum := conn.recvSeqNum + (getSize pack).toUInt64,
    rxTotalBytes := conn.rxTotalBytes + (getSize pack).toUInt64 }

-- Each turn takes a packet from the path or fails, so that one turn more than there are
-- packets is always enough.
def pathRecvedDataLoop : ℕ → MultipathConnection Path → SinglePath →
    Option (MultipathConnection Path × SinglePath)
  | 0, _, _ => none
  | turns + 1, conn, path => do
      let headPacketSeqNum ← path.headPacketSeqNum
      if conn.recvSeqNum = headPacketSeqNum ∨ headPacketSeqNum ≠ 0 then
        let (pack, path) ← path.recv
        match pack with
        | none => none
        | some pack => pathRecvedDataLoop turns (conn.pushReceived pack) path
      else return (conn, path)

theorem pathRecvedDataLoop_nil {turns : ℕ} {conn : MultipathConnection Path} {path : SinglePath}
    (buffer : path.rxBuffer = []) :
    pathRecvedDataLoop (turns + 1) conn path =
      if conn.recvSeqNum = 0 then none else some (conn, path) := by
  by_cases zero : conn.recvSeqNum = 0
  · simp [pathRecvedDataLoop, SinglePath.headPacketSeqNum, SinglePath.recv, buffer, zero]
  · simp [pathRecvedDataLoop, SinglePath.headPacketSeqNum, buffer, zero]

theorem pathRecvedDataLoop_cons {turns : ℕ} {conn : MultipathConnection Path} {path : SinglePath}
    {packet : Packet} {left : List Packet} {header : MultipathHeaderDSN}
    (buffer : path.rxBuffer = packet :: left)
    (peeked : peekMultipathHeaderDSN packet = some header) :
    pathRecvedDataLoop (turns + 1) conn path =
      if conn.recvSeqNum = header.dataSeqNum ∨ header.dataSeqNum ≠ 0 then
        pathRecvedDataLoop turns (conn.pushReceived (packet.drop 20))
          { path with rxBuffer := left }
      else some (conn, path) := by
  simp only [pathRecvedDataLoop, SinglePath.headPacketSeqNum, SinglePath.recv, buffer, peeked]
  rfl

theorem pathRecvedDataLoop_writes {turns : ℕ} {conn after : MultipathConnection Path}
    {path left : SinglePath} (looped : pathRecvedDataLoop turns conn path = some (after, left)) :
    ∃ recvSeqNum rxBuffer rxTotalBytes unread,
      after = { conn with recvSeqNum, rxBuffer, rxTotalBytes } ∧
      left = { path with rxBuffer := unread } := by
  induction turns generalizing conn path with
  | zero => simp [pathRecvedDataLoop] at looped
  | succ turns ih =>
      have stays : some (conn, path) = some (after, left) →
          ∃ recvSeqNum rxBuffer rxTotalBytes unread,
            after = { conn with recvSeqNum, rxBuffer, rxTotalBytes } ∧
            left = { path with rxBuffer := unread } := by
        intro same
        obtain ⟨rfl, rfl⟩ := Prod.mk.inj (Option.some.inj same)
        exact ⟨_, _, _, _, rfl, rfl⟩
      cases buffer : path.rxBuffer with
      | nil =>
          rw [pathRecvedDataLoop_nil buffer] at looped
          split at looped
          · cases looped
          · exact stays looped
      | cons packet rest =>
          cases peeked : peekMultipathHeaderDSN packet with
          | none => simp [pathRecvedDataLoop, SinglePath.headPacketSeqNum, buffer, peeked] at looped
          | some header =>
              rw [pathRecvedDataLoop_cons buffer peeked] at looped
              split at looped
              · obtain ⟨recvSeqNum, rxBuffer, rxTotalBytes, unread, rfl, rfl⟩ := ih looped
                exact ⟨recvSeqNum, rxBuffer, rxTotalBytes, unread, rfl, rfl⟩
              · exact stays looped

/-- `PathRecvedData`; the flag says that the upper layer is notified. -/
def pathRecvedData (conn : MultipathConnection Path) (path : SinglePath) :
    Option (MultipathConnection Path × SinglePath × Bool) := do
  let (conn, path) ← pathRecvedDataLoop (path.rxBuffer.length + 1) conn path
  return (conn, path, conn.rxBuffer ≠ [])

/-- `AddRawPath`; the flag says that `BuildConnection` is scheduled. -/
def addRawPath (conn : MultipathConnection Path) (path : Path) (ready : Bool) :
    MultipathConnection Path × Bool :=
  let conn :=
    if ready then { conn with rawReadyPath := conn.rawReadyPath ++ [path] }
    else { conn with rawFailPath := conn.rawFailPath ++ [path] }
  (conn, conn.rawReadyPath.length + conn.rawFailPath.length = conn.pathNum)

-- The path that is to call `InitConnection`, when there is one.
def buildConnection (conn : MultipathConnection Path) :
    MultipathConnection Path × Option Path :=
  match conn.rawReadyPath with
  | [] => (conn, none)
  | path :: rest => ({ conn with rawReadyPath := rest }, some path)

/-- `AddInitConnectPath`, which schedules `ConnectOtherPath`. -/
def addInitConnectPath (conn : MultipathConnection Path) (pointer : Path) (path : SinglePath) :
    Option (MultipathConnection Path) :=
  if path.connID ≠ 0 then
    some { conn with
      connID := path.connID
      sendSeqNum := path.connID
      recvSeqNum := path.connID
      remoteKey := path.remoteKey
      readyPath := conn.readyPath ++ [pointer]
      paths := conn.paths ++ [pointer]
      connState := .connect }
  else none

structure Joining (Path : Type) where
  memory : Path → SinglePath
  sent : List (Path × Packet)

-- What `ConnectOtherPath` does to one path of the raw set.
def connectPath [DecidableEq Path] (conn : MultipathConnection Path) (joining : Joining Path)
    (pointer : Path) : Joining Path :=
  let path := { joining.memory pointer with
    connID := conn.connID, remoteKey := conn.remoteKey, localCybertwinID := conn.localCyberID }
  let (path, request) := path.joinConnection
  { memory := Function.update joining.memory pointer path
    sent := joining.sent ++ [(pointer, request)] }

def connectOtherPath [DecidableEq Path] (conn : MultipathConnection Path)
    (memory : Path → SinglePath) : MultipathConnection Path × Joining Path :=
  ({ conn with rawReadyPath := [] },
    conn.rawReadyPath.foldl (connectPath conn) { memory, sent := [] })

-- The path and its request once `ConnectOtherPath` has been at it.
def joined (conn : MultipathConnection Path) (path : SinglePath) : SinglePath × Packet :=
  { path with
    connID := conn.connID, remoteKey := conn.remoteKey,
    localCybertwinID := conn.localCyberID }.joinConnection

theorem joined_request (conn : MultipathConnection Path) (path : SinglePath) :
    ∃ request : MultipathHeader, (conn.joined path).2 = request.serialize ∧
      request.senderKey = path.localKey ∧ request.connId = conn.connID :=
  ⟨_, rfl, rfl, rfl⟩

theorem foldl_connectPath [DecidableEq Path] (conn : MultipathConnection Path) (raw : List Path)
    (joining : Joining Path) (nodup : raw.Nodup) :
    raw.foldl (connectPath conn) joining =
      { memory := fun pointer =>
          if pointer ∈ raw then (conn.joined (joining.memory pointer)).1
          else joining.memory pointer,
        sent := joining.sent ++
          raw.map fun pointer => (pointer, (conn.joined (joining.memory pointer)).2) } := by
  induction raw generalizing joining with
  | nil => simp
  | cons first raw ih =>
      obtain ⟨fresh, nodup⟩ := List.nodup_cons.mp nodup
      have untouched : ∀ pointer ∈ raw, pointer ≠ first := fun pointer member same =>
        fresh (same ▸ member)
      rw [List.foldl_cons, ih _ nodup]
      simp only [connectPath, joined, List.map_cons, List.append_assoc, List.singleton_append,
        Joining.mk.injEq, List.append_cancel_left_eq, List.cons.injEq, true_and]
      constructor
      · funext pointer
        by_cases same : pointer = first
        · subst same
          simp [fresh]
        · simp [same]
      · refine List.map_congr_left fun pointer member => ?_
        simp [untouched pointer member]

theorem connectOtherPath_eq [DecidableEq Path] (conn : MultipathConnection Path)
    (memory : Path → SinglePath) (nodup : conn.rawReadyPath.Nodup) :
    conn.connectOtherPath memory = ({ conn with rawReadyPath := [] },
      { memory := fun pointer =>
          if pointer ∈ conn.rawReadyPath then (conn.joined (memory pointer)).1
          else memory pointer,
        sent := conn.rawReadyPath.map fun pointer =>
          (pointer, (conn.joined (memory pointer)).2) }) := by
  rw [connectOtherPath, foldl_connectPath _ _ _ nodup, List.nil_append]

def addOtherConnectPath (conn : MultipathConnection Path) (pointer : Path) (path : SinglePath) :
    Option (MultipathConnection Path) :=
  if path.connID = conn.connID then
    some { conn with paths := conn.paths ++ [pointer], connState := .connect }
  else none

def pathJoinResult [DecidableEq Path] (conn : MultipathConnection Path) (pointer : Path)
    (path : SinglePath) (success : Bool) : Option (MultipathConnection Path) :=
  if success then
    if path.connID = conn.connID then
      some { conn with
        readyPath := conn.readyPath ++ [pointer], paths := conn.paths ++ [pointer] }
    else none
  else some { conn with errorPath := conn.errorPath.insert pointer }

end MultipathConnection

end FISim
