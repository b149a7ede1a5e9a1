import FISim.Multipath.Connection

/-!
`CybertwinDataTransferServer` and the state machine of a path, whose `LISTEN`
state works on the server.  Connections of the server are numbered in the order
in which they were built, and a pointer to one is its number.
-/

namespace FISim

structure CybertwinDataTransferServer (Path : Type) where
  localCybertwinID : CybertwinId := 0
  connections : List (MultipathConnection Path) := []
  connectionIDs : MpConnId → Option ℕ := fun _ => none

namespace CybertwinDataTransferServer

variable {Path : Type}

-- `PathCreatedCallback`, for the key that `GenerateKey` has drawn.
def pathCreatedCallback (server : CybertwinDataTransferServer Path) (key : MpConnKey) :
    SinglePath :=
  { hasSocket := true, localKey := key, localCybertwinID := server.localCybertwinID,
    pathState := .listen }

def newConnectionBuilt (server : CybertwinDataTransferServer Path) (pointer : Path)
    (path : SinglePath) : Option (CybertwinDataTransferServer Path × SinglePath) := do
  let newConn ← MultipathConnection.ofPath pointer path
  let number := server.connections.length
  return ({ server with
    connections := server.connections ++ [newConn],
    connectionIDs := Function.update server.connectionIDs newConn.connID (some number) },
    { path with connection := some number })

def validConnectionID (server : CybertwinDataTransferServer Path) (connid : MpConnId) : Bool :=
  (server.connectionIDs connid).isSome

def newPathJoinConnection (server : CybertwinDataTransferServer Path) (pointer : Path)
    (path : SinglePath) : Option (CybertwinDataTransferServer Path × SinglePath) :=
  match server.connectionIDs path.connID with
  | none => some (server, path)
  | some number => do
      let conn ← server.connections[number]?
      let path := { path with connection := some number }
      let conn ← conn.addOtherConnectPath pointer path
      return ({ server with connections := server.connections.set number conn }, path)

end CybertwinDataTransferServer

structure Processed (Path : Type) where
  server : CybertwinDataTransferServer Path
  path : SinglePath
  unread : List Packet
  scheduled : List PathEvent
  replies : List Packet

namespace SinglePath

variable {Path : Type}

def listenReply (path : SinglePath) : Packet :=
  let rspHeader : MultipathHeader :=
    { senderKey := path.localKey, recverKey := path.remoteKey, connId := path.connID }
  rspHeader.serialize

def listenFirst (server : CybertwinDataTransferServer Path) (pointer : Path) (path : SinglePath)
    (rcvHeader : MultipathHeader) (unread replies : List Packet) : Option (Processed Path) := do
  let path := { path with
    remoteKey := rcvHeader.senderKey, remoteCybertwinID := rcvHeader.cuid,
    connID := spKeysToConnId rcvHeader.senderKey path.localKey }
  let reply := path.listenReply
  let (server, path) ← server.newConnectionBuilt pointer { path with pathState := .connected }
  return { server, path, unread, scheduled := [], replies := replies ++ [reply] }

def listenJoin (server : CybertwinDataTransferServer Path) (pointer : Path) (path : SinglePath)
    (rcvHeader : MultipathHeader) :
    Option (CybertwinDataTransferServer Path × SinglePath × Packet) := do
  let path := { path with remoteKey := rcvHeader.senderKey, connID := rcvHeader.connId }
  let (server, path) ← server.newPathJoinConnection pointer path
  return (server, { path with pathState := .connected }, path.listenReply)

def processListen (server : CybertwinDataTransferServer Path) (pointer : Path)
    (path : SinglePath) (replies : List Packet) : List Packet → Option (Processed Path)
  | [] => some { server, path, unread := [], scheduled := [], replies }
  | packet :: rest => do
      let rcvHeader ← peekMultipathHeader packet
      if rcvHeader.getSerializedSize = 0 then processListen server pointer path replies rest
      else if rcvHeader.connId = 0 then
        listenFirst server pointer path rcvHeader rest replies
      else if server.validConnectionID rcvHeader.connId then
        let (server, path, reply) ← listenJoin server pointer path rcvHeader
        processListen server pointer path (replies ++ [reply]) rest
      else return { server, path, unread := rest, scheduled := [], replies }

/-- The state machine of a path, run on what its socket has to read. -/
def stateProcesser (server : CybertwinDataTransferServer Path) (pointer : Path)
    (path : SinglePath) (unread : List Packet) : Option (Processed Path) :=
  match path.pathState with
  | .buildSent => do
      let (path, scheduled) ← path.processBuildSent unread
      return { server, path, unread := [], scheduled, replies := [] }
  | .listen => processListen server pointer path [] unread
  | .joinSent => do
      let (path, scheduled) ← path.processJoinSent unread
      return { server, path, unread := [], scheduled, replies := [] }
  | .connected => do
      let (path, scheduled) ← path.processConnected unread
      return { server, path, unread := [], scheduled, replies := [] }
  | .init | .ready | .closed | .error =>
      some { server, path, unread, scheduled := [], replies := [] }

variable {server : CybertwinDataTransferServer Path} {pointer : Path} {path : SinglePath}

theorem stateProcesser_buildSent {reply : MultipathHeader}
    (building : path.pathState = .buildSent) (id : reply.connId ≠ 0) (key : reply.senderKey ≠ 0) :
    path.stateProcesser server pointer [reply.serialize] = some {
      server, unread := [], replies := [], scheduled := [.addInitConnectPath],
      path := { path with
        connID := reply.connId, remoteKey := reply.senderKey, pathState := .connected } } := by
  simp [stateProcesser, building, processBuildSent, peekMultipathHeader_serialize, id, key,
    buildSentLoop]

theorem stateProcesser_joinSent {reply : MultipathHeader}
    (joining : path.pathState = .joinSent) (same : reply.connId = path.connID) :
    path.stateProcesser server pointer [reply.serialize] = some {
      server, unread := [], replies := [], scheduled := [.pathJoinResult true],
      path := { path with pathState := .connected } } := by
  simp [stateProcesser, joining, peekMultipathHeader_serialize, same, processJoinSent]

def replyHeader (path : SinglePath) (request : MultipathHeader) (connId : MpConnId) :
    MultipathHeader :=
  { senderKey := path.localKey, recverKey := request.senderKey, connId }

def firstConnection (pointer : Path) (path : SinglePath) (request : MultipathHeader) :
    MultipathConnection Path :=
  let connID := spKeysToConnId request.senderKey path.localKey
  { localCyberID := path.localCybertwinID, peerCyberID := request.cuid,
    localKey := path.localKey, connID, sendSeqNum := connID, recvSeqNum := connID,
    connState := .connect, pathNum := 0, paths := [pointer] }

theorem stateProcesser_listenFirst {request : MultipathHeader}
    (listening : path.pathState = .listen) (first : request.connId = 0) :
    path.stateProcesser server pointer [request.serialize] = some {
      server := { server with
        connections := server.connections ++ [firstConnection pointer path request],
        connectionIDs := Function.update server.connectionIDs
          (spKeysToConnId request.senderKey path.localKey) (some server.connections.length) },
      unread := [], scheduled := [],
      replies :=
        [(replyHeader path request (spKeysToConnId request.senderKey path.localKey)).serialize],
      path := { path with
        remoteKey := request.senderKey, remoteCybertwinID := request.cuid,
        connID := spKeysToConnId request.senderKey path.localKey, pathState := .connected,
        connection := some server.connections.length } } := by
  simp only [stateProcesser, listening, processListen, peekMultipathHeader_serialize,
    Option.bind_eq_bind, Option.bind_some, first, if_true]
  rfl

theorem stateProcesser_listenJoin {request : MultipathHeader} {number : ℕ}
    {conn : MultipathConnection Path} (listening : path.pathState = .listen)
    (joins : request.connId ≠ 0) (valid : server.connectionIDs request.connId = some number)
    (found : server.connections[number]? = some conn) (same : conn.connID = request.connId) :
    path.stateProcesser server pointer [request.serialize] = some {
      server := { server with
        connections := server.connections.set number
          { conn with paths := conn.paths ++ [pointer], connState := .connect } },
      unread := [], scheduled := [],
      replies := [(replyHeader path request request.connId).serialize],
      path := { path with
        remoteKey := request.senderKey, connID := request.connId, pathState := .connected,
        connection := some number } } := by
  simp [stateProcesser, listening, processListen, peekMultipathHeader_serialize, joins,
    CybertwinDataTransferServer.validConnectionID, valid, listenJoin,
    CybertwinDataTransferServer.newPathJoinConnection, found,
    MultipathConnection.addOtherConnectPath, same, listenReply, replyHeader]

end SinglePath

end FISim
