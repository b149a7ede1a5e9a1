import FISim.Lib.Transition
import FISim.Multipath.Server

/-!
Any number of client hosts that connect to one server.  Path `index` of a client
is a TCP connection of its own, with the requests on it in `up` and the replies
in `down`; a host keeps what its paths have scheduled in `pending` and runs these
events in any order.
-/

namespace FISim.Handshake

variable {Client : Type}

inductive ClientEvent
  | buildConnection
  | addInitConnectPath (path : ℕ)
  | connectOtherPath
  | pathJoinResult (path : ℕ) (success : Bool)
  | pathRecvedData (path : ℕ)
  deriving DecidableEq

def ClientEvent.ofPath (path : ℕ) : PathEvent → ClientEvent
  | .addInitConnectPath => .addInitConnectPath path
  | .pathJoinResult success => .pathJoinResult path success
  | .pathRecvedData => .pathRecvedData path

structure ClientHost where
  conn : MultipathConnection ℕ
  paths : ℕ → SinglePath
  pending : List ClientEvent

abbrev Link (Client : Type) := Client × ℕ

structure State (Client : Type) where
  client : Client → ClientHost
  server : CybertwinDataTransferServer (Link Client)
  serverPath : Link Client → Option SinglePath
  serverPending : List (Link Client × PathEvent)
  dialing : Link Client → Bool
  up : Link Client → List Packet
  down : Link Client → List Packet

inductive Action (Client : Type)
  | connected (link : Link Client)
  | failed (link : Link Client)
  | accepted (link : Link Client) (key : MpConnKey)
  | serverReceives (link : Link Client)
  | clientReceives (link : Link Client)
  | event (client : Client) (event : ClientEvent)

-- A client's path has no server, and none of its states asks for one.
def noServer : CybertwinDataTransferServer ℕ := {}

-- What running an event makes of a host, with the requests that its paths send.
def runEvent (host : ClientHost) : ClientEvent → Option (ClientHost × List (ℕ × Packet))
  | .buildConnection =>
      let (conn, first) := host.conn.buildConnection
      match first with
      | none => some ({ host with conn }, [])
      | some index =>
          let (path, request) := (host.paths index).initConnection
          some ({ host with conn, paths := Function.update host.paths index path },
            [(index, request)])
  | .addInitConnectPath index => do
      let conn ← host.conn.addInitConnectPath index (host.paths index)
      return ({ host with conn, pending := host.pending ++ [.connectOtherPath] }, [])
  | .connectOtherPath =>
      let (conn, joining) := host.conn.connectOtherPath host.paths
      some ({ host with conn, paths := joining.memory }, joining.sent)
  | .pathJoinResult index success => do
      let conn ← host.conn.pathJoinResult index (host.paths index) success
      return ({ host with conn }, [])
  | .pathRecvedData index => do
      let (conn, path, _) ← host.conn.pathRecvedData (host.paths index)
      return ({ host with conn, paths := Function.update host.paths index path }, [])

def addRawPath (host : ClientHost) (index : ℕ) (path : SinglePath) (ready : Bool) : ClientHost :=
  let (conn, build) := host.conn.addRawPath index ready
  { conn, paths := Function.update host.paths index path,
    pending := host.pending ++ if build then [.buildConnection] else [] }

variable [DecidableEq Client]

def step (before : State Client) : Action Client → Option (State Client)
  | .connected link =>
      if before.dialing link then
        let host := before.client link.1
        some { before with
          dialing := Function.update before.dialing link false
          client := Function.update before.client link.1
            (addRawPath host link.2 (host.paths link.2).pathConnectSucceeded true) }
      else none
  | .failed link =>
      if before.dialing link then
        let host := before.client link.1
        some { before with
          dialing := Function.update before.dialing link false
          client := Function.update before.client link.1
            (addRawPath host link.2 (host.paths link.2).pathConnectFailed false) }
      else none
  | .accepted link key =>
      if before.serverPath link = none ∧ key ≠ 0 then
        let path := before.server.pathCreatedCallback key
        some { before with serverPath := Function.update before.serverPath link (some path) }
      else none
  | .serverReceives link =>
      match before.serverPath link, before.up link with
      | some path, message :: rest => do
          let done ← path.stateProcesser before.server link [message]
          return { before with
            server := done.server
            serverPath := Function.update before.serverPath link (some done.path)
            serverPending := before.serverPending ++ done.scheduled.map fun event => (link, event)
            up := Function.update before.up link (done.unread ++ rest)
            down := Function.update before.down link (before.down link ++ done.replies) }
      | _, _ => none
  | .clientReceives link =>
      match before.down link with
      | message :: rest => do
          let host := before.client link.1
          let done ← (host.paths link.2).stateProcesser noServer link.2 [message]
          let host := { host with
            paths := Function.update host.paths link.2 done.path,
            pending := host.pending ++ done.scheduled.map (ClientEvent.ofPath link.2) }
          return { before with
            client := Function.update before.client link.1 host
            down := Function.update before.down link (done.unread ++ rest)
            up := Function.update before.up link (before.up link ++ done.replies) }
      | [] => none
  | .event client event =>
      let host := before.client client
      if event ∈ host.pending then do
        let (host, sent) ← runEvent { host with pending := host.pending.erase event } event
        return { before with
          client := Function.update before.client client host
          up := fun link => before.up link ++
            if link.1 = client then (sent.filter fun item => item.1 = link.2).map Prod.snd
            else [] }
      else none

/-- The keys that `GenerateKey` draws are distinct among the server's live paths. -/
def DistinctKeys (before : State Client) : Action Client → Prop
  | .accepted _ key => ∀ link path, before.serverPath link = some path → path.localKey ≠ key
  | _ => True

structure Initial (start : State Client) : Prop where
  keys : ∀ client, (start.client client).conn.localKey ≠ 0
  pathKeys : ∀ client index,
    ((start.client client).paths index).localKey = (start.client client).conn.localKey
  connState : ∀ client, (start.client client).conn.connState = .init
  paths : ∀ client, (start.client client).conn.paths = []
  rawReadyPath : ∀ client, (start.client client).conn.rawReadyPath = []
  rawFailPath : ∀ client, (start.client client).conn.rawFailPath = []
  pending : ∀ client, (start.client client).pending = []
  connections : start.server.connections = []
  connectionIDs : ∀ connID, start.server.connectionIDs connID = none
  serverPath : ∀ link, start.serverPath link = none
  dialing : ∀ link, start.dialing link = true ↔ link.2 < (start.client link.1).conn.pathNum
  up : ∀ link, start.up link = []
  down : ∀ link, start.down link = []

/-- The server's connection is the other end of the client's. -/
structure Agrees (state : State Client) (client : Client)
    (peer : MultipathConnection (Link Client)) : Prop where
  connID : (state.client client).conn.connID =
    spKeysToConnId (state.client client).conn.localKey peer.localKey
  sendSeqNum : (state.client client).conn.sendSeqNum = peer.recvSeqNum
  recvSeqNum : (state.client client).conn.recvSeqNum = peer.sendSeqNum
  once : (state.client client).conn.paths.Nodup
  paths : ∀ index ∈ (state.client client).conn.paths,
    ((state.client client).paths index).connID = (state.client client).conn.connID ∧
      peer.paths.count (client, index) = 1

/-- Every connected client has exactly one connection of the server under its id, and that one
agrees with it. -/
def Agreement (state : State Client) : Prop :=
  ∀ client, (state.client client).conn.connState = .connect →
    ∃ (number : ℕ) (peer : MultipathConnection (Link Client)),
      state.server.connections[number]? = some peer ∧
      peer.connID = (state.client client).conn.connID ∧ Agrees state client peer ∧
      ∀ (other : ℕ) (otherPeer : MultipathConnection (Link Client)),
        state.server.connections[other]? = some otherPeer →
          otherPeer.connID = (state.client client).conn.connID → other = number

end FISim.Handshake
