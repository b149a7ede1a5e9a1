import FISim.Multipath.Accounting
import FISim.Multipath.Closing

/-!
The id of an established connection.  Every operation of `MultipathConnection`
but the identity setters is an action here, in any order; a path reads data in
between.
-/

namespace FISim

namespace MpConnState

-- The number of the enumerator, which `SetConnState` takes for an id.
def toConnId : MpConnState → MpConnId
  | init => 0
  | bind => 1
  | send => 2
  | connect => 3
  | closing => 4
  | closed => 5

end MpConnState

namespace MultipathConnection

variable {Path : Type}

def setConnState (conn : MultipathConnection Path) (st : MpConnState) : MultipathConnection Path :=
  { conn with connID := st.toConnId }

def setLocalKey (conn : MultipathConnection Path) (key : MpConnKey) : MultipathConnection Path :=
  { conn with localKey := key }

def setRemoteKey (conn : MultipathConnection Path) (key : MpConnKey) : MultipathConnection Path :=
  { conn with remoteKey := key }

def setLocalCybertwinID (conn : MultipathConnection Path) (id : CybertwinId) :
    MultipathConnection Path :=
  { conn with localCyberID := id }

def setPeerCybertwinID (conn : MultipathConnection Path) (id : CybertwinId) :
    MultipathConnection Path :=
  { conn with peerCyberID := id }

-- The key is what the random variable gives, drawn again until it is not zero.
def setup (conn : MultipathConnection Path) (cyberid : CybertwinId) (key : MpConnKey) :
    MultipathConnection Path :=
  { conn with localCyberID := cyberid, localKey := key, connState := .init }

def connect (conn : MultipathConnection Path) (targetID : CybertwinId) : MultipathConnection Path :=
  { conn with peerCyberID := targetID }

structure Report (Path : Type) where
  connid : MpConnId
  localID : CybertwinId
  peer : CybertwinId
  connBytes : UInt64
  pathBytes : List (MpPathId × UInt64)

/-- `ConnectionReport`, which hands the counters of one direction over to the report callback. -/
def connectionReport (conn : MultipathConnection Path) (memory : Path → SinglePath) (send : Bool) :
    Report Path :=
  { connid := conn.connID, localID := conn.localCyberID, peer := conn.peerCyberID,
    connBytes := if send then conn.txTotalBytes else conn.rxTotalBytes,
    pathBytes := conn.paths.map fun pointer =>
      ((memory pointer).pathId,
        if send then (memory pointer).txTotalBytes else (memory pointer).rxTotalBytes) }

end MultipathConnection

namespace Identity

open Transition

variable {Path : Type}

structure State (Path : Type) where
  conn : MultipathConnection Path
  memory : Path → SinglePath
  -- history: what `ConnectionReport` has handed over
  reports : List (MultipathConnection.Report Path) := []

inductive Action (Path : Type)
  | setup (cyberid : CybertwinId) (key : MpConnKey)
  | connect (targetID : CybertwinId)
  | send (payload : Packet)
  | sendData (answer : ℕ → SocketAnswer)
  | arrive (path : Path) (chunks : List Packet)
  | pathRecvedData (path : Path)
  | recv
  | close
  | addRawPath (path : Path) (ready : Bool)
  | buildConnection
  | addInitConnectPath (path : Path)
  | connectOtherPath
  | addOtherConnectPath (path : Path)
  | pathJoinResult (path : Path) (success : Bool)
  | connectionReport (send : Bool)
  | setConnState (st : MpConnState)
  | setLocalKey (key : MpConnKey)
  | setRemoteKey (key : MpConnKey)
  | setLocalCybertwinID (id : CybertwinId)
  | setPeerCybertwinID (id : CybertwinId)

def step [DecidableEq Path] (before : State Path) : Action Path → Option (State Path)
  | .setup cyberid key =>
      if key = 0 then none else some { before with conn := before.conn.setup cyberid key }
  | .connect targetID => some { before with conn := before.conn.connect targetID }
  | .send payload => some { before with conn := (before.conn.send payload).conn }
  | .sendData answer => do
      let ran ← before.conn.sendData before.memory answer
      return { before with conn := ran.conn, memory := ran.memory }
  | .arrive path chunks =>
      if (before.memory path).pathState ≠ .connected then none
      else do
        let (received, _) ← (before.memory path).processConnected chunks
        return { before with memory := Function.update before.memory path received }
  | .pathRecvedData path => do
      let (conn, received, _) ← before.conn.pathRecvedData (before.memory path)
      return { before with conn, memory := Function.update before.memory path received }
  | .recv => some { before with conn := before.conn.recv.2 }
  | .close => do
      -- A `Close` that deletes a path goes on with it, and has no result.
      let done ← before.conn.close fun path => some (before.memory path)
      return { before with conn := done.conn }
  | .addRawPath path ready => some { before with conn := (before.conn.addRawPath path ready).1 }
  | .buildConnection =>
      match before.conn.buildConnection with
      | (conn, none) => some { before with conn }
      | (conn, some path) => some { before with
          conn
          memory := Function.update before.memory path (before.memory path).initConnection.1 }
  | .addInitConnectPath path => do
      let conn ← before.conn.addInitConnectPath path (before.memory path)
      return { before with conn }
  | .connectOtherPath =>
      let (conn, joining) := before.conn.connectOtherPath before.memory
      some { before with conn, memory := joining.memory }
  | .addOtherConnectPath path => do
      let conn ← before.conn.addOtherConnectPath path (before.memory path)
      return { before with conn }
  | .pathJoinResult path success => do
      let conn ← before.conn.pathJoinResult path (before.memory path) success
      return { before with conn }
  | .connectionReport send => some { before with
      reports := before.reports ++ [before.conn.connectionReport before.memory send] }
  | .setConnState st => some { before with conn := before.conn.setConnState st }
  | .setLocalKey key => some { before with conn := before.conn.setLocalKey key }
  | .setRemoteKey key => some { before with conn := before.conn.setRemoteKey key }
  | .setLocalCybertwinID id => some { before with conn := before.conn.setLocalCybertwinID id }
  | .setPeerCybertwinID id => some { before with conn := before.conn.setPeerCybertwinID id }

structure Stable (id : MpConnId) (state : State Path) : Prop where
  connID : state.conn.connID = id
  paths : ∀ path ∈ state.conn.paths, (state.memory path).connID = id

/-- `SetConnState` is called only with a state whose number is the id, and no path with another id
is made the first one again. -/
def Keeps (id : MpConnId) (state : State Path) : Action Path → Prop
  | .setConnState st => st.toConnId = id
  | .addInitConnectPath path => (state.memory path).connID = id
  | _ => True

structure Framed (before after : State Path) : Prop where
  connID : after.conn.connID = before.conn.connID
  paths : ∀ path ∈ after.conn.paths,
    path ∈ before.conn.paths ∧ (after.memory path).connID = (before.memory path).connID ∨
      (after.memory path).connID = before.conn.connID

theorem Framed.of_same {before after : State Path} (connID : after.conn.connID = before.conn.connID)
    (paths : after.conn.paths = before.conn.paths)
    (memory : ∀ path, (after.memory path).connID = (before.memory path).connID) :
    Framed before after :=
  ⟨connID, fun path member => Or.inl ⟨paths ▸ member, memory path⟩⟩

theorem Framed.stable {id : MpConnId} {before after : State Path} (framed : Framed before after)
    (stable : Stable id before) : Stable id after := by
  refine ⟨framed.connID.trans stable.connID, fun path member => ?_⟩
  rcases framed.paths path member with ⟨known, same⟩ | same
  · exact same.trans (stable.paths path known)
  · exact same.trans stable.connID

theorem update_connID [DecidableEq Path] {memory : Path → SinglePath} {pointer : Path}
    {path : SinglePath} (same : path.connID = (memory pointer).connID) (other : Path) :
    (Function.update memory pointer path other).connID = (memory other).connID := by
  by_cases here : other = pointer
  · subst here
    rw [Function.update_self, same]
  · rw [Function.update_of_ne here]

theorem pathRecvedDataLoop_frame {turns : ℕ} {conn after : MultipathConnection Path}
    {path left : SinglePath}
    (looped : MultipathConnection.pathRecvedDataLoop turns conn path = some (after, left)) :
    after.connID = conn.connID ∧ after.paths = conn.paths ∧ left.connID = path.connID := by
  obtain ⟨_, _, _, _, rfl, rfl⟩ := MultipathConnection.pathRecvedDataLoop_writes looped
  exact ⟨rfl, rfl, rfl⟩

theorem foldl_connectPath_connID [DecidableEq Path] (conn : MultipathConnection Path)
    (raw : List Path) (joining : MultipathConnection.Joining Path) (path : Path) :
    ((raw.foldl (MultipathConnection.connectPath conn) joining).memory path).connID =
        (joining.memory path).connID ∨
      ((raw.foldl (MultipathConnection.connectPath conn) joining).memory path).connID =
        conn.connID := by
  induction raw generalizing joining with
  | nil => exact Or.inl rfl
  | cons first raw ih =>
      rw [List.foldl_cons]
      rcases ih (MultipathConnection.connectPath conn joining first) with same | same
      · rw [same]
        by_cases here : path = first
        · subst here
          right
          simp [MultipathConnection.connectPath, SinglePath.joinConnection]
        · left
          simp [MultipathConnection.connectPath, here]
      · exact Or.inr same

theorem sendData_frame [DecidableEq Path] {conn : MultipathConnection Path}
    {memory : Path → SinglePath} {answer : ℕ → SocketAnswer}
    {ran : MultipathConnection.SendDataResult Path}
    (happened : conn.sendData memory answer = some ran) :
    ran.conn.connID = conn.connID ∧ ran.conn.paths = conn.paths ∧
      ∀ path, (ran.memory path).connID = (memory path).connID := by
  rcases MultipathConnection.sendData_cases happened with
    ⟨-, rfl⟩ | ⟨-, pointer, index, bytes, -, rfl⟩
  · exact ⟨rfl, rfl, fun _ => rfl⟩
  · exact ⟨rfl, rfl, update_connID rfl⟩

theorem added_framed {before : State Path} {pointer : Path} {conn : MultipathConnection Path}
    (same : (before.memory pointer).connID = before.conn.connID)
    (connID : conn.connID = before.conn.connID)
    (paths : conn.paths = before.conn.paths ++ [pointer]) : Framed before { before with conn } := by
  refine ⟨connID, fun path member => ?_⟩
  change path ∈ conn.paths at member
  rw [paths, List.mem_append, List.mem_singleton] at member
  rcases member with known | rfl
  · exact Or.inl ⟨known, rfl⟩
  · exact Or.inr same

theorem step_framed [DecidableEq Path] {before after : State Path} {action : Action Path}
    (stepped : step before action = some after) (notState : ∀ st, action ≠ .setConnState st)
    (notFirst : ∀ path, action ≠ .addInitConnectPath path) : Framed before after := by
  cases action with
  | setup cyberid key =>
      simp only [step] at stepped
      split at stepped
      · cases stepped
      · obtain rfl := Option.some.inj stepped
        exact Framed.of_same rfl rfl fun _ => rfl
  | connect targetID | setLocalKey key | setRemoteKey key | setLocalCybertwinID id | setPeerCybertwinID id
  | connectionReport send =>
      obtain rfl := Option.some.inj stepped
      exact Framed.of_same rfl rfl fun _ => rfl
  | send payload =>
      obtain rfl := Option.some.inj stepped
      by_cases empty : getSize payload = 0
      · rw [MultipathConnection.send_empty _ empty]
        exact Framed.of_same rfl rfl fun _ => rfl
      · rw [MultipathConnection.send_filled _ empty]
        exact Framed.of_same rfl rfl fun _ => rfl
  | sendData answer =>
      obtain ⟨ran, happened, result⟩ := Option.bind_eq_some_iff.mp stepped
      obtain rfl := Option.some.inj result
      obtain ⟨connID, paths, memory⟩ := sendData_frame happened
      exact Framed.of_same connID paths memory
  | arrive path chunks =>
      simp only [step] at stepped
      split at stepped
      · cases stepped
      · obtain ⟨⟨received, events⟩, processed, result⟩ := Option.bind_eq_some_iff.mp stepped
        obtain rfl := Option.some.inj result
        obtain ⟨-, -, rfl⟩ := SinglePath.processConnected_cases processed
        exact Framed.of_same rfl rfl (update_connID rfl)
  | pathRecvedData path =>
      obtain ⟨⟨conn, received, notify⟩, happened, result⟩ := Option.bind_eq_some_iff.mp stepped
      obtain rfl := Option.some.inj result
      obtain ⟨⟨looped, left⟩, ran, same⟩ := Option.bind_eq_some_iff.mp happened
      simp only [Option.pure_def, Option.some.injEq, Prod.mk.injEq] at same
      obtain ⟨rfl, rfl, -⟩ := same
      obtain ⟨connID, paths, kept⟩ := pathRecvedDataLoop_frame ran
      exact Framed.of_same connID paths (update_connID kept)
  | recv =>
      obtain rfl := Option.some.inj stepped
      unfold MultipathConnection.recv
      split
      · exact Framed.of_same rfl rfl fun _ => rfl
      · exact Framed.of_same rfl rfl fun _ => rfl
  | close =>
      obtain ⟨done, happened, result⟩ := Option.bind_eq_some_iff.mp stepped
      obtain rfl := Option.some.inj result
      obtain ⟨-, ⟨-, -, conn⟩ | ⟨-, -, conn⟩⟩ := MultipathConnection.close_cases happened
      · rw [conn]
        exact Framed.of_same rfl rfl fun _ => rfl
      · rw [conn]
        exact Framed.of_same rfl rfl fun _ => rfl
  | addRawPath path ready =>
      obtain rfl := Option.some.inj stepped
      cases ready with
      | true => exact Framed.of_same rfl rfl fun _ => rfl
      | false => exact Framed.of_same rfl rfl fun _ => rfl
  | buildConnection =>
      unfold step MultipathConnection.buildConnection at stepped
      cases raw : before.conn.rawReadyPath with
      | nil =>
          rw [raw] at stepped
          obtain rfl := Option.some.inj stepped
          exact Framed.of_same rfl rfl fun _ => rfl
      | cons first rest =>
          rw [raw] at stepped
          obtain rfl := Option.some.inj stepped
          exact Framed.of_same rfl rfl (update_connID rfl)
  | addInitConnectPath path => exact absurd rfl (notFirst path)
  | connectOtherPath =>
      obtain rfl := Option.some.inj stepped
      refine ⟨rfl, fun path member => ?_⟩
      rcases foldl_connectPath_connID before.conn before.conn.rawReadyPath
        { memory := before.memory, sent := [] } path with same | same
      · exact Or.inl ⟨member, same⟩
      · exact Or.inr same
  | addOtherConnectPath path =>
      obtain ⟨conn, added, result⟩ := Option.bind_eq_some_iff.mp stepped
      obtain rfl := Option.some.inj result
      unfold MultipathConnection.addOtherConnectPath at added
      split at added
      · rename_i same
        obtain rfl := Option.some.inj added
        exact added_framed same rfl rfl
      · cases added
  | pathJoinResult path success =>
      obtain ⟨conn, joined, result⟩ := Option.bind_eq_some_iff.mp stepped
      obtain rfl := Option.some.inj result
      unfold MultipathConnection.pathJoinResult at joined
      cases success with
      | false =>
          obtain rfl := Option.some.inj joined
          exact Framed.of_same rfl rfl fun _ => rfl
      | true =>
          rw [if_pos rfl] at joined
          split at joined
          · rename_i same
            obtain rfl := Option.some.inj joined
            exact added_framed same rfl rfl
          · cases joined
  | setConnState st => exact absurd rfl (notState st)

theorem setConnState_stable_iff {id : MpConnId} {before : State Path} (stable : Stable id before)
    (st : MpConnState) :
    Stable id { before with conn := before.conn.setConnState st } ↔ st.toConnId = id :=
  ⟨fun after => after.connID, fun same => ⟨same, stable.paths⟩⟩

theorem addInitConnectPath_stable_iff {id : MpConnId} {before : State Path}
    (stable : Stable id before) {pointer : Path} {conn : MultipathConnection Path}
    (added : before.conn.addInitConnectPath pointer (before.memory pointer) = some conn) :
    Stable id { before with conn } ↔ (before.memory pointer).connID = id := by
  unfold MultipathConnection.addInitConnectPath at added
  split at added
  · obtain rfl := Option.some.inj added
    constructor
    · exact fun after => after.connID
    · intro same
      refine ⟨same, fun path member => ?_⟩
      rcases List.mem_append.mp member with known | new
      · exact stable.paths path known
      · rw [List.mem_singleton.mp new]
        exact same
  · cases added

theorem step_stable_iff [DecidableEq Path] {id : MpConnId} {before after : State Path}
    {action : Action Path} (stable : Stable id before) (stepped : step before action = some after) :
    Stable id after ↔ Keeps id before action := by
  have frame : (∀ st, action ≠ .setConnState st) → (∀ path, action ≠ .addInitConnectPath path) →
      Keeps id before action → (Stable id after ↔ Keeps id before action) :=
    fun notState notFirst keeps =>
      ⟨fun _ => keeps, fun _ => (step_framed stepped notState notFirst).stable stable⟩
  cases action with
  | setConnState st =>
      obtain rfl := Option.some.inj stepped
      exact setConnState_stable_iff stable st
  | addInitConnectPath path =>
      obtain ⟨conn, added, result⟩ := Option.bind_eq_some_iff.mp stepped
      obtain rfl := Option.some.inj result
      exact addInitConnectPath_stable_iff stable added
  | _ =>
      apply frame
      · intro st
        simp
      · intro path
        simp
      · trivial

/-- In a run of operations the connection and its paths keep their id exactly if `SetConnState`
never writes another number over it. -/
theorem identity_iff [DecidableEq Path] {start : State Path}
    (established : Stable start.conn.connID start) {actions : List (Action Path)}
    (ran : (run step start actions).isSome) :
    Throughout step (Stable start.conn.connID) start actions ↔
      Guarded step (Keeps start.conn.connID) start actions :=
  throughout_iff_guarded (fun _ _ _ => step_stable_iff) established ran

def oneServerPath : State Unit :=
  { conn := { connID := 7, paths := [()], connState := .connect, sendSeqNum := 7, recvSeqNum := 7 },
    memory := fun _ => { connID := 7, pathState := .connected, hasSocket := true } }

theorem oneServerPath_identity :
    Throughout step (Stable 7) oneServerPath
      [.send [1], .sendData fun _ => .accepted, .recv, .close] := by
  have established : Stable oneServerPath.conn.connID oneServerPath := ⟨rfl, fun _ _ => rfl⟩
  exact (identity_iff established (by decide)).mpr (guarded_of_forall (by simp [Keeps]))

/-- Closing the connection state by `SetConnState` gives the connection the id 4, while its path
keeps the old one. -/
theorem setConnState_overwrites :
    Stable 7 oneServerPath ∧
      (run step oneServerPath [.setConnState .closing]).map (fun last =>
        (last.conn.connID, last.conn.connState, (last.memory ()).connID)) =
          some (4, .connect, 7) ∧
      ¬ Throughout step (Stable 7) oneServerPath [.setConnState .closing] := by
  refine ⟨⟨rfl, fun _ _ => rfl⟩, rfl, fun holds => ?_⟩
  have after := (holds [.setConnState .closing] [] _ rfl rfl).connID
  revert after
  decide

end Identity

end FISim
