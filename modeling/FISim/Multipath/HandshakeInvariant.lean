import FISim.Multipath.Handshake
import Mathlib.Data.List.Perm.Subperm
import Mathlib.Data.List.Range

/-!
The invariant of the handshake.  Every link is at a stage, which says what is on
its two channels and what its two ends hold; a client's founder is the path that
`BuildConnection` chose, and its identifier the one that the server then made.
-/

namespace FISim.Handshake

variable {Client : Type}

inductive Stage
  | unused
  | dialing
  | raw
  | failed
  | asking
  | answered
  | accepted
  | member
  deriving DecidableEq

def Stage.begun : Stage → Bool
  | asking | answered | accepted | member => true
  | unused | dialing | raw | failed => false

def Stage.settled : Stage → Bool
  | answered | accepted | member => true
  | unused | dialing | raw | failed | asking => false

structure Ghost (Client : Type) where
  stage : Link Client → Stage
  founder : Client → Option ℕ
  ident : Client → MpConnId

structure LinkView where
  stage : Stage
  founds : Prop
  ident : MpConnId
  key : MpConnKey
  path : SinglePath
  serverPath : Option SinglePath
  dialing : Bool
  up : List Packet
  down : List Packet

def view (state : State Client) (ghost : Ghost Client) (link : Link Client) : LinkView where
  stage := ghost.stage link
  founds := ghost.founder link.1 = some link.2
  ident := ghost.ident link.1
  key := (state.client link.1).conn.localKey
  path := (state.client link.1).paths link.2
  serverPath := state.serverPath link
  dialing := state.dialing link
  up := state.up link
  down := state.down link

def Listening (link : LinkView) : Prop :=
  ∀ path, link.serverPath = some path → path.pathState = .listen

def Bound (link : LinkView) : Prop := ∃ path, link.serverPath = some path ∧ path.connID = link.ident

def Waiting (link : LinkView) : Prop :=
  (link.founds → link.path.pathState = .buildSent) ∧
    (¬ link.founds → link.path.pathState = .joinSent ∧ link.path.connID = link.ident)

def Asked (link : LinkView) : Prop :=
  ∃ request : MultipathHeader, link.up = [request.serialize] ∧ request.senderKey = link.key ∧
    (link.founds → request.connId = 0) ∧ (¬ link.founds → request.connId = link.ident)

def Answered (link : LinkView) : Prop :=
  ∃ reply : MultipathHeader, link.down = [reply.serialize] ∧ reply.senderKey ≠ 0 ∧
    reply.connId = link.ident

structure LinkOk (link : LinkView) : Prop where
  key : link.path.localKey = link.key
  dialing : link.dialing = true ↔ link.stage = .dialing
  asked : link.stage = .asking → Asked link
  quietUp : link.stage ≠ .asking → link.up = []
  answered : link.stage = .answered → Answered link
  quietDown : link.stage ≠ .answered → link.down = []
  waiting : link.stage = .asking ∨ link.stage = .answered → Waiting link
  held : link.stage = .accepted ∨ link.stage = .member → link.path.connID = link.ident
  listening : link.stage.settled = false → Listening link
  bound : link.stage.settled = true → Bound link

structure ClientOk (stage : ℕ → Stage) (founder : Option ℕ) (ident : MpConnId)
    (host : ClientHost) : Prop where
  key : host.conn.localKey ≠ 0
  used : ∀ index, stage index = .unused ↔ host.conn.pathNum ≤ index
  rawReady : host.conn.rawReadyPath.Nodup ∧
    ∀ index, index ∈ host.conn.rawReadyPath ↔ stage index = .raw
  rawFail : host.conn.rawFailPath.Nodup ∧
    ∀ index, index ∈ host.conn.rawFailPath ↔ stage index = .failed
  members : host.conn.paths.Nodup ∧ ∀ index, index ∈ host.conn.paths ↔ stage index = .member
  pending : host.pending.Nodup
  build : .buildConnection ∈ host.pending → founder = none ∧ ∀ index, stage index ≠ .dialing
  addInit : ∀ index, .addInitConnectPath index ∈ host.pending ↔
    founder = some index ∧ stage index = .accepted
  join : ∀ index success, .pathJoinResult index success ∈ host.pending ↔
    success = true ∧ founder ≠ some index ∧ stage index = .accepted
  other : .connectOtherPath ∈ host.pending → host.conn.connState = .connect
  noData : ∀ index, .pathRecvedData index ∉ host.pending
  unfounded : founder = none → ∀ index, (stage index).begun = false
  founded : ∀ first, founder = some first →
    (stage first).begun = true ∧ ∀ index, stage index ≠ .dialing
  alone : ∀ first, founder = some first → stage first ≠ .member →
    ∀ index, index ≠ first → (stage index).begun = false
  connect : host.conn.connState = .connect ↔
    ∃ first, founder = some first ∧ stage first = .member
  numbers : host.conn.connState = .connect →
    host.conn.connID = ident ∧ host.conn.sendSeqNum = ident ∧ host.conn.recvSeqNum = ident

variable [DecidableEq Client]

structure Owner (ghost : Ghost Client) (serverPath : Link Client → Option SinglePath)
    (client : Client) (peer : MultipathConnection (Link Client)) (first : ℕ) : Prop where
  founder : ghost.founder client = some first
  settled : (ghost.stage (client, first)).settled = true
  connID : peer.connID = ghost.ident client
  localKey : ∀ path, serverPath (client, first) = some path → peer.localKey = path.localKey
  sendSeqNum : peer.sendSeqNum = ghost.ident client
  recvSeqNum : peer.recvSeqNum = ghost.ident client
  paths : ∀ link, peer.paths.count link =
    if link.1 = client ∧ (ghost.stage link).settled = true then 1 else 0

structure ServerOk (ghost : Ghost Client) (key : Client → MpConnKey)
    (server : CybertwinDataTransferServer (Link Client))
    (serverPath : Link Client → Option SinglePath) : Prop where
  keys : ∀ link path, serverPath link = some path → path.localKey ≠ 0
  distinct : ∀ link path other otherPath, serverPath link = some path →
    serverPath other = some otherPath → path.localKey = otherPath.localKey → link = other
  owned : ∀ (number : ℕ) (peer : MultipathConnection (Link Client)),
    server.connections[number]? = some peer → ∃ client first,
      Owner ghost serverPath client peer first ∧
        server.connectionIDs (ghost.ident client) = some number
  served : ∀ client first, ghost.founder client = some first →
    (ghost.stage (client, first)).settled = true →
    ∃ (number : ℕ) (peer : MultipathConnection (Link Client)),
      server.connectionIDs (ghost.ident client) = some number ∧
        server.connections[number]? = some peer ∧ Owner ghost serverPath client peer first
  ident : ∀ client first path, ghost.founder client = some first →
    (ghost.stage (client, first)).settled = true → serverPath (client, first) = some path →
    ghost.ident client = spKeysToConnId (key client) path.localKey

structure Inv (state : State Client) (ghost : Ghost Client) : Prop where
  links : ∀ link, LinkOk (view state ghost link)
  clients : ∀ client, ClientOk (fun index => ghost.stage (client, index)) (ghost.founder client)
    (ghost.ident client) (state.client client)
  server : ServerOk ghost (fun client => (state.client client).conn.localKey) state.server
    state.serverPath

variable {state next : State Client} {ghost : Ghost Client}

omit [DecidableEq Client] in
theorem linkOk_early {link : LinkView} (early : link.stage.begun = false)
    (key : link.path.localKey = link.key) (dialing : link.dialing = true ↔ link.stage = .dialing)
    (up : link.up = []) (down : link.down = []) (listening : Listening link) : LinkOk link := by
  obtain ⟨stage, founds, ident, linkKey, path, serverPath, dials, upward, downward⟩ := link
  constructor
  · exact key
  · exact dialing
  all_goals cases stage <;> simp_all [Stage.begun, Stage.settled]

theorem inv_initial (initial : Initial state) : ∃ ghost, Inv state ghost := by
  let stage : Link Client → Stage := fun link =>
    if link.2 < (state.client link.1).conn.pathNum then .dialing else .unused
  have early : ∀ link, stage link = .dialing ∨ stage link = .unused := by
    intro link
    by_cases used : link.2 < (state.client link.1).conn.pathNum
    · exact Or.inl (if_pos used)
    · exact Or.inr (if_neg used)
  have unbegun : ∀ link, (stage link).begun = false := by
    intro link
    rcases early link with dialing | unused
    · rw [dialing]; rfl
    · rw [unused]; rfl
  have unsettled : ∀ link, (stage link).settled = false := by
    intro link
    rcases early link with dialing | unused
    · rw [dialing]; rfl
    · rw [unused]; rfl
  refine ⟨{ stage, founder := fun _ => none, ident := fun _ => 0 }, ?_, ?_, ?_⟩
  · intro link
    refine linkOk_early (unbegun link) (initial.pathKeys link.1 link.2) ?_ (initial.up link)
      (initial.down link) ?_
    · simp [view, initial.dialing, stage]
    · intro path found
      simp [view, initial.serverPath] at found
  · intro client
    have stages : ∀ index, stage (client, index) ≠ .raw ∧ stage (client, index) ≠ .failed ∧
        stage (client, index) ≠ .member := by
      intro index
      rcases early (client, index) with dialing | unused
      · simp [dialing]
      · simp [unused]
    constructor
    · exact initial.keys client
    · simp [stage]
    · simp [initial.rawReadyPath, stages]
    · simp [initial.rawFailPath, stages]
    · simp [initial.paths, stages]
    · simp [initial.pending]
    · simp [initial.pending]
    · simp [initial.pending]
    · intro index success
      rcases early (client, index) with dialing | unused
      · simp [initial.pending, dialing]
      · simp [initial.pending, unused]
    · simp [initial.pending]
    · simp [initial.pending]
    · exact fun _ index => unbegun (client, index)
    · simp
    · simp
    · simp [initial.connState]
    · simp [initial.connState]
  · constructor
    · simp [initial.serverPath]
    · simp [initial.serverPath]
    · simp [initial.connections]
    · simp
    · simp

theorem Inv.ident_inj (inv : Inv state ghost) {client other : Client} {first second : ℕ}
    (founder : ghost.founder client = some first)
    (settled : (ghost.stage (client, first)).settled = true)
    (otherFounder : ghost.founder other = some second)
    (otherSettled : (ghost.stage (other, second)).settled = true)
    (same : ghost.ident client = ghost.ident other) : client = other := by
  obtain ⟨path, found, _⟩ := (inv.links (client, first)).bound settled
  obtain ⟨otherPath, otherFound, _⟩ := (inv.links (other, second)).bound otherSettled
  rw [inv.server.ident client first path founder settled found,
    inv.server.ident other second otherPath otherFounder otherSettled otherFound,
    spKeysToConnId_inj] at same
  exact congrArg Prod.fst (inv.server.distinct _ _ _ _ found otherFound same.2)

theorem Inv.agreement (inv : Inv state ghost) : Agreement state := by
  intro client connected
  obtain ⟨first, founder, member⟩ := (inv.clients client).connect.mp connected
  have settled : (ghost.stage (client, first)).settled = true := by rw [member]; rfl
  obtain ⟨number, peer, numbered, found, owner⟩ := inv.server.served client first founder settled
  obtain ⟨connID, sendSeqNum, recvSeqNum⟩ := (inv.clients client).numbers connected
  obtain ⟨path, bound, _⟩ := (inv.links (client, first)).bound settled
  refine ⟨number, peer, found, by rw [owner.connID, connID], ?_, ?_⟩
  · constructor
    · rw [connID, inv.server.ident client first path founder settled bound,
        owner.localKey path bound]
    · rw [sendSeqNum, owner.recvSeqNum]
    · rw [recvSeqNum, owner.sendSeqNum]
    · exact (inv.clients client).members.1
    · intro index inside
      have stage := ((inv.clients client).members.2 index).mp inside
      refine ⟨?_, ?_⟩
      · rw [connID]
        exact (inv.links (client, index)).held (Or.inr stage)
      · rw [owner.paths, if_pos ⟨rfl, by rw [stage]; rfl⟩]
  · intro other otherPeer otherFound same
    obtain ⟨otherClient, second, otherOwner, otherNumbered⟩ :=
      inv.server.owned other otherPeer otherFound
    rw [connID, otherOwner.connID] at same
    obtain rfl := inv.ident_inj otherOwner.founder otherOwner.settled founder settled same
    rw [numbered] at otherNumbered
    exact (Option.some.inj otherNumbered).symm

theorem ServerOk.frame {after : Ghost Client} {key : Client → MpConnKey}
    {server : CybertwinDataTransferServer (Link Client)}
    {serverPath : Link Client → Option SinglePath} (ok : ServerOk ghost key server serverPath)
    (stage : ∀ link, (after.stage link).settled = (ghost.stage link).settled)
    (founder : ∀ client first, (ghost.stage (client, first)).settled = true →
      (after.founder client = some first ↔ ghost.founder client = some first))
    (ident : after.ident = ghost.ident) : ServerOk after key server serverPath := by
  have owner : ∀ {client peer first}, Owner ghost serverPath client peer first →
      Owner after serverPath client peer first := by
    intro client peer first owner
    refine ⟨(founder client first owner.settled).mpr owner.founder, ?_, ?_, owner.localKey, ?_, ?_,
      ?_⟩
    · rw [stage]
      exact owner.settled
    · rw [ident]
      exact owner.connID
    · rw [ident]
      exact owner.sendSeqNum
    · rw [ident]
      exact owner.recvSeqNum
    · intro link
      rw [owner.paths, stage]
  refine ⟨ok.keys, ok.distinct, ?_, ?_, ?_⟩
  · intro number peer found
    obtain ⟨client, first, owned, numbered⟩ := ok.owned number peer found
    exact ⟨client, first, owner owned, by rw [ident]; exact numbered⟩
  · intro client first founded settled
    rw [stage] at settled
    obtain ⟨number, peer, numbered, found, owned⟩ :=
      ok.served client first ((founder client first settled).mp founded) settled
    exact ⟨number, peer, by rw [ident]; exact numbered, found, owner owned⟩
  · intro client first path founded settled found
    rw [stage] at settled
    rw [ident]
    exact ok.ident client first path ((founder client first settled).mp founded) settled found

theorem LinkOk.frame {after : Ghost Client} {link other : Link Client}
    (ok : LinkOk (view state ghost other)) (distinct : other ≠ link)
    {host : ClientHost} (client : next.client = Function.update state.client link.1 host)
    (key : host.conn.localKey = (state.client link.1).conn.localKey)
    (paths : ∀ index, index ≠ link.2 → host.paths index = (state.client link.1).paths index)
    (serverPath : next.serverPath other = state.serverPath other)
    (dialing : next.dialing other = state.dialing other) (up : next.up other = state.up other)
    (down : next.down other = state.down other) (stage : after.stage other = ghost.stage other)
    (founder : (after.founder other.1 = some other.2) = (ghost.founder other.1 = some other.2))
    (ident : after.ident other.1 = ghost.ident other.1 ∨ (ghost.stage other).begun = false) :
    LinkOk (view next after other) := by
  have path : (next.client other.1).paths other.2 = (state.client other.1).paths other.2 := by
    by_cases sameClient : other.1 = link.1
    · have otherIndex : other.2 ≠ link.2 := fun same => distinct (Prod.ext sameClient same)
      simp [client, sameClient, paths _ otherIndex]
    · simp [client, sameClient]
  have localKey : (next.client other.1).conn.localKey = (state.client other.1).conn.localKey := by
    by_cases sameClient : other.1 = link.1
    · simp [client, sameClient, key]
    · simp [client, sameClient]
  rcases ident with ident | early
  · have same : view next after other = view state ghost other := by
      simp only [view, path, localKey, serverPath, dialing, up, down, stage, founder, ident]
    rw [same]
    exact ok
  · refine linkOk_early (by rw [view, stage]; exact early) ?_ ?_ ?_ ?_ ?_
    · simp only [view, path, localKey]
      exact ok.key
    · simp only [view, dialing, stage]
      exact ok.dialing
    · simp only [view, up]
      refine ok.quietUp fun asking => ?_
      rw [show ghost.stage other = .asking from asking] at early
      cases early
    · simp only [view, down]
      refine ok.quietDown fun answered => ?_
      rw [show ghost.stage other = .answered from answered] at early
      cases early
    · simp only [Listening, view, serverPath]
      refine ok.listening ?_
      change (ghost.stage other).settled = false
      revert early
      cases ghost.stage other <;> decide

theorem stage_update_same (stage : Link Client → Stage) (link : Link Client) (new : Stage) :
    (fun index => Function.update stage link new (link.1, index)) =
      Function.update (fun index => stage (link.1, index)) link.2 new := by
  funext index
  by_cases same : index = link.2
  · subst same
    simp
  · have distinct : (link.1, index) ≠ link := fun equal => same (congrArg Prod.snd equal)
    simp [same, distinct]

theorem stage_update_other (stage : Link Client → Stage) (link : Link Client) (new : Stage)
    {client : Client} (distinct : client ≠ link.1) :
    (fun index => Function.update stage link new (client, index)) =
      fun index => stage (client, index) := by
  funext index
  have apart : (client, index) ≠ link := fun equal => distinct (congrArg Prod.fst equal)
  simp [apart]

theorem localKey_update {client : Client} {host : ClientHost}
    (key : host.conn.localKey = (state.client client).conn.localKey) :
    (fun other => (Function.update state.client client host other).conn.localKey) =
      fun other => (state.client other).conn.localKey := by
  funext other
  by_cases same : other = client
  · subst same
    simp [key]
  · simp [same]

end FISim.Handshake
