import FISim.Common
import FISim.Lib.InverseMaps
import FISim.Lib.Transition
import Mathlib.Data.BitVec

/-!
The stream tables of `Cybertwin`: the connections that `SendPendingPackets` asks
for, and what the resolution and the callbacks of the sockets make of them.
-/

namespace FISim.Control

open Transition InverseMaps

abbrev StreamId := BitVec 128

def getPeerIdFromStreamId (streamId : StreamId) : CybertwinId :=
  UInt64.ofBitVec (streamId.setWidth 64)

-- What a socket is doing, which the program does not keep.
inductive SocketStatus
  | unused
  | resolving (peer : CybertwinId)
  | connecting (peer : CybertwinInterface)
  | failed
  | connected
  | accepted
  | closed
  deriving DecidableEq, Repr

/-- Sockets are numbers.  `status`, `nextSocket` and `sent` are not the program's. -/
structure StreamTables where
  txStreamBuffer : StreamId → List Packet := fun _ => []
  txConnections : StreamId → Option ℕ := fun _ => none
  txConnectionsReverse : ℕ → Option CybertwinId := fun _ => none
  pendingConnections : StreamId → Option ℕ := fun _ => none
  pendingConnectionsReverse : ℕ → Option StreamId := fun _ => none
  rxConnections : ℕ → Bool := fun _ => false
  rxConnectionsReverse : ℕ → Option CybertwinInterface := fun _ => none
  status : ℕ → SocketStatus := fun _ => .unused
  nextSocket : ℕ := 0
  sent : List (ℕ × Packet) := []

namespace StreamTables

inductive Event
  | buffered (streamId : StreamId) (packet : Packet)
  | sendPendingPackets (streamId : StreamId)
  | resolved (socket : ℕ) (ifs : CybertwinInterfaceList) (connects : Bool)
  | connected (socket : ℕ)
  | connectError (socket : ℕ)
  | accepted (peerAddr : CybertwinInterface)
  | normalClose (socket : ℕ)
  | errorClose (socket : ℕ)
  deriving DecidableEq, Repr

variable (tables : StreamTables)

def setStatus (socket : ℕ) (status : SocketStatus) : StreamTables :=
  { tables with status := Function.update tables.status socket status }

def sendPendingPackets (streamId : StreamId) : StreamTables :=
  match tables.txConnections streamId with
  | some conn =>
      { tables with
        txStreamBuffer := Function.update tables.txStreamBuffer streamId []
        sent := tables.sent ++ (tables.txStreamBuffer streamId).map fun packet => (conn, packet) }
  | none =>
      match tables.pendingConnections streamId with
      | some _ => tables
      | none =>
          let conn := tables.nextSocket
          { tables.setStatus conn (.resolving (getPeerIdFromStreamId streamId)) with
            pendingConnectionsReverse :=
              Function.update tables.pendingConnectionsReverse conn (some streamId)
            pendingConnections := Function.update tables.pendingConnections streamId (some conn)
            nextSocket := tables.nextSocket + 1 }

/-- `connects` is whether `Connect` accepts the address. -/
def socketConnectWithResolvedCybertwinName (socket : ℕ) (ifs : CybertwinInterfaceList)
    (connects : Bool) : StreamTables :=
  match ifs with
  | [] => tables.setStatus socket .failed
  | peeraddr :: _ => tables.setStatus socket (if connects then .connecting peeraddr else .failed)

def newSpConnectionCreatedCallback (socket : ℕ) (peerAddr : CybertwinInterface) : StreamTables :=
  match tables.pendingConnectionsReverse socket with
  | some streamId =>
      { tables with
        pendingConnections := Function.update tables.pendingConnections streamId none
        pendingConnectionsReverse := Function.update tables.pendingConnectionsReverse socket none
        txConnections := Function.update tables.txConnections streamId (some socket)
        txConnectionsReverse := Function.update tables.txConnectionsReverse socket
          (some (UInt64.ofBitVec (streamId.setWidth 64))) }
  | none =>
      { tables with
        rxConnections := Function.update tables.rxConnections socket true
        rxConnectionsReverse :=
          Function.update tables.rxConnectionsReverse socket (some peerAddr) }

def spNormalCloseCallback (socket : ℕ) : StreamTables :=
  if (tables.txConnectionsReverse socket).isSome then
    { tables with
      txConnectionsReverse := Function.update tables.txConnectionsReverse socket none }
  else if (tables.rxConnectionsReverse socket).isSome then
    { tables with
      rxConnectionsReverse := Function.update tables.rxConnectionsReverse socket none
      rxConnections := Function.update tables.rxConnections socket false }
  else tables

def spErrorCloseCallback (_socket : ℕ) : StreamTables := tables

def newSpConnectionErrorCallback (_socket : ℕ) : StreamTables := tables

def step : Event → Option StreamTables
  | .buffered streamId packet =>
      some { tables with
        txStreamBuffer := Function.update tables.txStreamBuffer streamId
          (tables.txStreamBuffer streamId ++ [packet]) }
  | .sendPendingPackets streamId => some (tables.sendPendingPackets streamId)
  | .resolved socket ifs connects =>
      match tables.status socket with
      | .resolving _ =>
          some (tables.socketConnectWithResolvedCybertwinName socket ifs connects)
      | _ => none
  | .connected socket =>
      match tables.status socket with
      | .connecting peerAddr =>
          some ((tables.setStatus socket .connected).newSpConnectionCreatedCallback socket peerAddr)
      | _ => none
  | .connectError socket =>
      match tables.status socket with
      | .connecting _ =>
          some ((tables.setStatus socket .failed).newSpConnectionErrorCallback socket)
      | _ => none
  | .accepted peerAddr =>
      let socket := tables.nextSocket
      let accepted := { tables.setStatus socket .accepted with nextSocket := tables.nextSocket + 1 }
      some (accepted.newSpConnectionCreatedCallback socket peerAddr)
  | .normalClose socket =>
      if tables.status socket = .connected ∨ tables.status socket = .accepted then
        some ((tables.setStatus socket .closed).spNormalCloseCallback socket)
      else none
  | .errorClose socket =>
      if tables.status socket = .connected ∨ tables.status socket = .accepted then
        some ((tables.setStatus socket .closed).spErrorCloseCallback socket)
      else none

-- What `m_txConnectionsReverse` says, as stream ids.
def txReverse (socket : ℕ) : Option StreamId :=
  (tables.txConnectionsReverse socket).map fun cuid => cuid.toBitVec.setWidth 128

structure Consistent : Prop where
  disjoint : ∀ streamId, (tables.pendingConnections streamId).isSome →
    tables.txConnections streamId = none
  pendingInverse : Inverse tables.pendingConnections tables.pendingConnectionsReverse
  txInverse : Inverse tables.txConnections tables.txReverse
  alive : ∀ streamId socket, tables.txConnections streamId = some socket →
    tables.status socket ≠ .closed
  retried : ∀ streamId socket, tables.pendingConnections streamId = some socket →
    tables.status socket = .failed → ∃ calls,
      ((fun tables => tables.sendPendingPackets streamId)^[calls] tables).pendingConnections
        streamId ≠ some socket

/-- Every name resolves, every connect succeeds, a connected stream has an id of 64 bits, and only
accepted connections close. -/
def Regular : Event → Prop
  | .resolved _ ifs connects => ifs ≠ [] ∧ connects = true
  | .connected socket => ∀ streamId ∈ tables.pendingConnectionsReverse socket,
      streamId.toNat < 2 ^ 64
  | .connectError _ => False
  | .normalClose socket => tables.txConnectionsReverse socket = none
  | .errorClose socket => tables.txConnectionsReverse socket = none
  | _ => True

instance (event : Event) : Decidable (tables.Regular event) := by
  cases event <;> unfold Regular <;> infer_instance

end StreamTables

def SocketStatus.Asking : SocketStatus → Prop
  | resolving _ => True
  | connecting _ => True
  | _ => False

namespace StreamTables

/-- What the tables say of a socket is what it is doing. -/
structure Placed (tables : StreamTables) (socket : ℕ) : Prop where
  asking : ∀ streamId, tables.pendingConnections streamId = some socket →
    (tables.status socket).Asking
  asked : (tables.status socket).Asking → (tables.pendingConnectionsReverse socket).isSome
  established : ∀ streamId, tables.txConnections streamId = some socket →
    tables.status socket = .connected
  unused : tables.nextSocket ≤ socket → tables.status socket = .unused

structure Kept (tables : StreamTables) : Prop where
  disjoint : ∀ streamId, (tables.pendingConnections streamId).isSome →
    tables.txConnections streamId = none
  pendingInverse : Inverse tables.pendingConnections tables.pendingConnectionsReverse
  txInverse : Inverse tables.txConnections tables.txReverse
  placed : ∀ socket, tables.Placed socket

variable {tables next : StreamTables} {socket : ℕ} {streamId : StreamId}

theorem Kept.consistent (kept : tables.Kept) : tables.Consistent := by
  refine ⟨kept.disjoint, kept.pendingInverse, kept.txInverse, ?_, ?_⟩
  · intro streamId socket present
    rw [(kept.placed socket).established streamId present]
    decide
  · intro streamId socket present failed
    have asking := (kept.placed socket).asking streamId present
    rw [failed] at asking
    exact absurd asking id

theorem Kept.same (kept : tables.Kept)
    (pending : next.pendingConnections = tables.pendingConnections)
    (pendingReverse : next.pendingConnectionsReverse = tables.pendingConnectionsReverse)
    (sending : next.txConnections = tables.txConnections)
    (sendingReverse : next.txConnectionsReverse = tables.txConnectionsReverse)
    (status : next.status = tables.status) (numbered : next.nextSocket = tables.nextSocket) :
    next.Kept := by
  have reverse : next.txReverse = tables.txReverse := by
    unfold txReverse
    rw [sendingReverse]
  refine ⟨?_, ?_, ?_, fun socket => ⟨?_, ?_, ?_, ?_⟩⟩
  · rw [pending, sending]
    exact kept.disjoint
  · rw [pending, pendingReverse]
    exact kept.pendingInverse
  · rw [sending, reverse]
    exact kept.txInverse
  · rw [pending, status]
    exact (kept.placed socket).asking
  · rw [status, pendingReverse]
    exact (kept.placed socket).asked
  · rw [sending, status]
    exact (kept.placed socket).established
  · rw [numbered, status]
    exact (kept.placed socket).unused

theorem Kept.not_pending_reverse (kept : tables.Kept) (idle : ¬ (tables.status socket).Asking) :
    tables.pendingConnectionsReverse socket = none := by
  cases present : tables.pendingConnectionsReverse socket with
  | none => rfl
  | some streamId =>
      have pending := (kept.pendingInverse streamId socket).mpr present
      exact absurd ((kept.placed socket).asking streamId pending) idle

theorem Kept.txReverse_none (kept : tables.Kept) (idle : tables.status socket ≠ .connected) :
    tables.txReverse socket = none := by
  cases present : tables.txReverse socket with
  | none => rfl
  | some streamId =>
      have sending := (kept.txInverse streamId socket).mpr present
      exact absurd ((kept.placed socket).established streamId sending) idle

theorem Kept.known (kept : tables.Kept) (inUse : tables.status socket ≠ .unused) :
    socket < tables.nextSocket := by
  by_contra beyond
  exact inUse ((kept.placed socket).unused (by omega))

theorem Kept.fresh (kept : tables.Kept) : tables.status tables.nextSocket = .unused :=
  (kept.placed tables.nextSocket).unused (Nat.le_refl _)

theorem Kept.fresh_idle (kept : tables.Kept) : ¬ (tables.status tables.nextSocket).Asking := by
  rw [kept.fresh]
  exact id

/-- Only the tables' entries for one socket change, and what that socket is doing. -/
structure Changes (before after : StreamTables) (socket : ℕ) (status : SocketStatus) : Prop where
  status : after.status = Function.update before.status socket status
  numbered : before.nextSocket ≤ after.nextSocket
  reverse : ∀ other, other ≠ socket →
    after.pendingConnectionsReverse other = before.pendingConnectionsReverse other
  pending : ∀ other, other ≠ socket → ∀ streamId, after.pendingConnections streamId = some other →
    before.pendingConnections streamId = some other
  sending : ∀ other, other ≠ socket → ∀ streamId, after.txConnections streamId = some other →
    before.txConnections streamId = some other

theorem Kept.placed_change (kept : tables.Kept) {status : SocketStatus}
    (changes : Changes tables next socket status) (here : next.Placed socket) (other : ℕ) :
    next.Placed other := by
  by_cases same : other = socket
  · rw [same]
    exact here
  · have placed := kept.placed other
    have unchanged : next.status other = tables.status other := by
      rw [changes.status, Function.update_of_ne same]
    refine ⟨?_, ?_, ?_, ?_⟩
    · intro streamId present
      rw [unchanged]
      exact placed.asking streamId (changes.pending other same streamId present)
    · rw [unchanged, changes.reverse other same]
      exact placed.asked
    · intro streamId present
      rw [unchanged]
      exact placed.established streamId (changes.sending other same streamId present)
    · intro later
      rw [unchanged]
      exact placed.unused (Nat.le_trans changes.numbered later)

theorem changes_setStatus (status : SocketStatus) :
    Changes tables (tables.setStatus socket status) socket status :=
  ⟨rfl, Nat.le_refl _, fun _ _ => rfl, fun _ _ _ present => present, fun _ _ _ present => present⟩

theorem Kept.setStatus (kept : tables.Kept) {status : SocketStatus}
    (asking : (tables.status socket).Asking ↔ status.Asking)
    (idle : tables.txReverse socket = none) (known : socket < tables.nextSocket) :
    (tables.setStatus socket status).Kept := by
  have here : (tables.setStatus socket status).status socket = status := Function.update_self ..
  refine ⟨kept.disjoint, kept.pendingInverse, kept.txInverse,
    kept.placed_change (changes_setStatus status) ⟨?_, ?_, ?_, ?_⟩⟩
  · intro streamId present
    rw [here, ← asking]
    exact (kept.placed socket).asking streamId present
  · rw [here, ← asking]
    exact (kept.placed socket).asked
  · intro streamId present
    exact absurd present (kept.txInverse.free idle streamId)
  · intro later
    exact absurd known (Nat.not_lt.mpr later)

theorem Kept.ask (kept : tables.Kept) (peer : CybertwinId)
    (free : tables.txConnections streamId = none) (idle : tables.pendingConnections streamId = none) :
    Kept { tables.setStatus tables.nextSocket (.resolving peer) with
      pendingConnectionsReverse :=
        Function.update tables.pendingConnectionsReverse tables.nextSocket (some streamId)
      pendingConnections :=
        Function.update tables.pendingConnections streamId (some tables.nextSocket)
      nextSocket := tables.nextSocket + 1 } := by
  have here : Function.update tables.status tables.nextSocket (.resolving peer) tables.nextSocket =
      .resolving peer := Function.update_self ..
  refine ⟨?_, kept.pendingInverse.insert idle (kept.not_pending_reverse kept.fresh_idle),
    kept.txInverse, kept.placed_change
      ⟨rfl, Nat.le_succ _, fun _ old => Function.update_of_ne old .., ?_, fun _ _ _ present => present⟩
      ⟨?_, ?_, ?_, ?_⟩⟩
  · intro other pending
    by_cases same : other = streamId
    · rw [same]
      exact free
    · change (Function.update tables.pendingConnections _ _ other).isSome at pending
      rw [Function.update_of_ne same] at pending
      exact kept.disjoint other pending
  · intro socket old other present
    change Function.update tables.pendingConnections _ _ other = _ at present
    by_cases same : other = streamId
    · rw [same, Function.update_self] at present
      exact absurd (Option.some.inj present).symm old
    · rwa [Function.update_of_ne same] at present
  · intro _ _
    change (Function.update tables.status _ _ tables.nextSocket).Asking
    rw [here]
    trivial
  · intro _
    change (Function.update tables.pendingConnectionsReverse _ _ tables.nextSocket).isSome
    rw [Function.update_self]
    rfl
  · intro other present
    have connected := (kept.placed tables.nextSocket).established other present
    rw [kept.fresh] at connected
    cases connected
  · intro later
    exact absurd later (Nat.not_succ_le_self tables.nextSocket)

theorem Kept.sendPendingPackets (kept : tables.Kept) (streamId : StreamId) :
    (tables.sendPendingPackets streamId).Kept := by
  unfold StreamTables.sendPendingPackets
  split
  · exact kept.same rfl rfl rfl rfl rfl rfl
  · rename_i free
    split
    · exact kept
    · rename_i idle
      exact kept.ask _ free idle

theorem txReverse_update (narrow : streamId.toNat < 2 ^ 64) (other : ℕ) :
    (Function.update tables.txConnectionsReverse socket
        (some (UInt64.ofBitVec (streamId.setWidth 64))) other).map
      (fun cuid => cuid.toBitVec.setWidth 128) =
      Function.update tables.txReverse socket (some streamId) other := by
  by_cases same : other = socket
  · rw [same, Function.update_self, Function.update_self, Option.map_some, Option.some.injEq]
    apply BitVec.eq_of_toNat_eq
    simp only [BitVec.toNat_setWidth]
    omega
  · rw [Function.update_of_ne same, Function.update_of_ne same]
    rfl

theorem Kept.connect (kept : tables.Kept) {peerAddr : CybertwinInterface}
    (connecting : tables.status socket = .connecting peerAddr)
    (pending : tables.pendingConnectionsReverse socket = some streamId)
    (narrow : streamId.toNat < 2 ^ 64) :
    ((tables.setStatus socket .connected).newSpConnectionCreatedCallback socket peerAddr).Kept := by
  have present : tables.pendingConnections streamId = some socket :=
    (kept.pendingInverse streamId socket).mpr pending
  have free : tables.txConnections streamId = none := kept.disjoint streamId (by rw [present]; rfl)
  have absent : tables.txReverse socket = none := kept.txReverse_none (by simp [connecting])
  have here : Function.update tables.status socket .connected socket = .connected :=
    Function.update_self ..
  have made : (tables.setStatus socket .connected).newSpConnectionCreatedCallback socket peerAddr =
      { tables.setStatus socket .connected with
        pendingConnections := Function.update tables.pendingConnections streamId none
        pendingConnectionsReverse := Function.update tables.pendingConnectionsReverse socket none
        txConnections := Function.update tables.txConnections streamId (some socket)
        txConnectionsReverse := Function.update tables.txConnectionsReverse socket
          (some (UInt64.ofBitVec (streamId.setWidth 64))) } := by
    have same : (tables.setStatus socket .connected).pendingConnectionsReverse socket =
        some streamId := pending
    rw [newSpConnectionCreatedCallback, same]
    rfl
  rw [made]
  refine ⟨?_, kept.pendingInverse.erase present, ?_, kept.placed_change
    ⟨rfl, Nat.le_refl _, fun _ old => Function.update_of_ne old .., ?_, ?_⟩ ⟨?_, ?_, ?_, ?_⟩⟩
  · intro other isPending
    change (Function.update tables.pendingConnections _ _ other).isSome at isPending
    change Function.update tables.txConnections _ _ other = none
    by_cases same : other = streamId
    · rw [same, Function.update_self] at isPending
      cases isPending
    · rw [Function.update_of_ne same] at isPending ⊢
      exact kept.disjoint other isPending
  · have inserted := kept.txInverse.insert free absent
    rw [← funext (txReverse_update narrow)] at inserted
    exact inserted
  · intro holder _ other isPending
    change Function.update tables.pendingConnections _ _ other = _ at isPending
    by_cases same : other = streamId
    · rw [same, Function.update_self] at isPending
      cases isPending
    · rwa [Function.update_of_ne same] at isPending
  · intro holder old other isPresent
    change Function.update tables.txConnections _ _ other = _ at isPresent
    by_cases same : other = streamId
    · rw [same, Function.update_self] at isPresent
      exact absurd (Option.some.inj isPresent).symm old
    · rwa [Function.update_of_ne same] at isPresent
  · intro other isPending
    change Function.update tables.pendingConnections _ _ other = _ at isPending
    by_cases same : other = streamId
    · rw [same, Function.update_self] at isPending
      cases isPending
    · rw [Function.update_of_ne same] at isPending
      exact absurd (kept.pendingInverse.unique isPending present) same
  · intro asking
    change (Function.update tables.status _ _ socket).Asking at asking
    rw [here] at asking
    exact absurd asking id
  · exact fun _ _ => here
  · intro later
    exact absurd (kept.known (by simp [connecting])) (Nat.not_lt.mpr later)

theorem Kept.accept (kept : tables.Kept) (peerAddr : CybertwinInterface) :
    ({ tables.setStatus tables.nextSocket .accepted with
      nextSocket := tables.nextSocket + 1 }.newSpConnectionCreatedCallback tables.nextSocket
        peerAddr).Kept := by
  have absent : { tables.setStatus tables.nextSocket .accepted with
      nextSocket := tables.nextSocket + 1 }.pendingConnectionsReverse tables.nextSocket = none :=
    kept.not_pending_reverse kept.fresh_idle
  have here : Function.update tables.status tables.nextSocket .accepted tables.nextSocket =
      .accepted := Function.update_self ..
  rw [newSpConnectionCreatedCallback, absent]
  refine ⟨kept.disjoint, kept.pendingInverse, kept.txInverse, kept.placed_change
    ⟨rfl, Nat.le_succ _, fun _ _ => rfl, fun _ _ _ present => present, fun _ _ _ present => present⟩
    ⟨?_, ?_, ?_, ?_⟩⟩
  · intro streamId present
    exact absurd ((kept.placed tables.nextSocket).asking streamId present) kept.fresh_idle
  · intro asking
    change (Function.update tables.status _ _ tables.nextSocket).Asking at asking
    rw [here] at asking
    exact absurd asking id
  · intro streamId present
    have connected := (kept.placed tables.nextSocket).established streamId present
    rw [kept.fresh] at connected
    cases connected
  · intro later
    exact absurd later (Nat.not_succ_le_self tables.nextSocket)

theorem Kept.close (kept : tables.Kept)
    (inUse : tables.status socket = .connected ∨ tables.status socket = .accepted)
    (notSending : tables.txConnectionsReverse socket = none) :
    (tables.setStatus socket .closed).Kept := by
  have absent : tables.txReverse socket = none := by
    rw [txReverse, notSending]
    rfl
  refine kept.setStatus ?_ absent (kept.known ?_)
  · rcases inUse with status | status
    · rw [status]
      exact ⟨id, id⟩
    · rw [status]
      exact ⟨id, id⟩
  · rcases inUse with status | status
    · simp [status]
    · simp [status]

theorem Kept.spNormalCloseCallback (kept : tables.Kept)
    (notSending : tables.txConnectionsReverse socket = none) :
    (tables.spNormalCloseCallback socket).Kept := by
  rw [StreamTables.spNormalCloseCallback, notSending, if_neg (by simp)]
  split
  · exact kept.same rfl rfl rfl rfl rfl rfl
  · exact kept

theorem Kept.step {event : Event} (kept : tables.Kept) (regular : tables.Regular event)
    (stepped : tables.step event = some next) : next.Kept := by
  cases event with
  | buffered streamId packet =>
      obtain rfl := Option.some.inj stepped
      exact kept.same rfl rfl rfl rfl rfl rfl
  | sendPendingPackets streamId =>
      obtain rfl := Option.some.inj stepped
      exact kept.sendPendingPackets streamId
  | resolved socket ifs connects =>
      obtain ⟨found, rfl⟩ := regular
      simp only [StreamTables.step] at stepped
      split at stepped
      · rename_i peer resolving
        obtain rfl := Option.some.inj stepped
        obtain ⟨peeraddr, rest, rfl⟩ := List.exists_cons_of_ne_nil found
        refine kept.setStatus ?_ (kept.txReverse_none (by simp [resolving]))
          (kept.known (by simp [resolving]))
        rw [resolving]
        exact ⟨fun _ => trivial, fun _ => trivial⟩
      · cases stepped
  | connected socket =>
      simp only [StreamTables.step] at stepped
      split at stepped
      · rename_i peerAddr connecting
        obtain rfl := Option.some.inj stepped
        have asked := (kept.placed socket).asked (by rw [connecting]; trivial)
        obtain ⟨streamId, pending⟩ := Option.isSome_iff_exists.mp asked
        exact kept.connect connecting pending (regular streamId pending)
      · cases stepped
  | connectError socket => exact regular.elim
  | accepted peerAddr =>
      obtain rfl := Option.some.inj stepped
      exact kept.accept peerAddr
  | normalClose socket =>
      simp only [StreamTables.step] at stepped
      split at stepped
      · rename_i inUse
        obtain rfl := Option.some.inj stepped
        exact (kept.close inUse regular).spNormalCloseCallback regular
      · cases stepped
  | errorClose socket =>
      simp only [StreamTables.step] at stepped
      split at stepped
      · rename_i inUse
        obtain rfl := Option.some.inj stepped
        exact kept.close inUse regular
      · cases stepped

theorem sendPendingPackets_pending (free : tables.txConnections streamId = none)
    (pending : tables.pendingConnections streamId = some socket) :
    tables.sendPendingPackets streamId = tables := by
  rw [sendPendingPackets, free, pending]

theorem Kept.not_retried (kept : tables.Kept) (asking : (tables.status socket).Asking) :
    ¬ (tables.setStatus socket .failed).Consistent := by
  intro consistent
  obtain ⟨streamId, reverse⟩ := Option.isSome_iff_exists.mp ((kept.placed socket).asked asking)
  have pending := (kept.pendingInverse streamId socket).mpr reverse
  have free := kept.disjoint streamId (by rw [pending]; rfl)
  have failed : (tables.setStatus socket .failed).status socket = .failed := Function.update_self ..
  obtain ⟨calls, moved⟩ := consistent.retried streamId socket pending failed
  have still : (tables.setStatus socket .failed).sendPendingPackets streamId =
      tables.setStatus socket .failed := sendPendingPackets_pending free pending
  rw [Function.iterate_fixed still] at moved
  exact moved pending

theorem Kept.not_alive (kept : tables.Kept) (sending : tables.txConnectionsReverse socket ≠ none)
    (same : next.txConnections = tables.txConnections) (closed : next.status socket = .closed) :
    ¬ next.Consistent := by
  intro consistent
  obtain ⟨cuid, reverse⟩ := Option.ne_none_iff_exists'.mp sending
  have present : tables.txConnections (cuid.toBitVec.setWidth 128) = some socket := by
    rw [kept.txInverse, txReverse, reverse]
    rfl
  rw [← same] at present
  exact consistent.alive _ socket present closed

theorem spNormalCloseCallback_frame :
    (tables.spNormalCloseCallback socket).txConnections = tables.txConnections ∧
      (tables.spNormalCloseCallback socket).status = tables.status := by
  unfold spNormalCloseCallback
  split
  · exact ⟨rfl, rfl⟩
  · split <;> exact ⟨rfl, rfl⟩

theorem Kept.regular {event : Event} (kept : tables.Kept)
    (stepped : tables.step event = some next) (consistent : next.Consistent) :
    tables.Regular event := by
  cases event with
  | buffered streamId packet => trivial
  | sendPendingPackets streamId => trivial
  | accepted peerAddr => trivial
  | resolved socket ifs connects =>
      simp only [StreamTables.step] at stepped
      split at stepped
      · rename_i peer resolving
        obtain rfl := Option.some.inj stepped
        have failing : ¬ (tables.setStatus socket .failed).Consistent :=
          kept.not_retried (by rw [resolving]; trivial)
        cases ifs with
        | nil => exact absurd consistent failing
        | cons peeraddr rest =>
            cases connects with
            | true => exact ⟨by simp, rfl⟩
            | false => exact absurd consistent failing
      · cases stepped
  | connected socket =>
      intro streamId pending
      simp only [StreamTables.step] at stepped
      split at stepped
      · obtain rfl := Option.some.inj stepped
        have reverse : (tables.setStatus socket .connected).pendingConnectionsReverse socket =
            some streamId := pending
        rw [newSpConnectionCreatedCallback, reverse] at consistent
        have inverse := (consistent.txInverse streamId socket).mp (Function.update_self ..)
        have widened : ((UInt64.ofBitVec (streamId.setWidth 64)).toBitVec.setWidth 128) =
            streamId := by
          have here : (Function.update tables.txConnectionsReverse socket
              (some (UInt64.ofBitVec (streamId.setWidth 64))) socket).map
                (fun cuid => cuid.toBitVec.setWidth 128) = some streamId := inverse
          rw [Function.update_self] at here
          exact Option.some.inj here
        have number := congrArg BitVec.toNat widened
        simp only [BitVec.toNat_setWidth] at number
        omega
      · cases stepped
  | connectError socket =>
      simp only [StreamTables.step] at stepped
      split at stepped
      · rename_i peerAddr connecting
        obtain rfl := Option.some.inj stepped
        exact kept.not_retried (by rw [connecting]; trivial) consistent
      · cases stepped
  | normalClose socket =>
      simp only [StreamTables.step] at stepped
      split at stepped
      · obtain rfl := Option.some.inj stepped
        by_contra sending
        have statuses : ((tables.setStatus socket .closed).spNormalCloseCallback socket).status =
            Function.update tables.status socket .closed := spNormalCloseCallback_frame.2
        have same : ((tables.setStatus socket .closed).spNormalCloseCallback socket).txConnections =
            tables.txConnections := spNormalCloseCallback_frame.1
        refine kept.not_alive sending same ?_ consistent
        rw [statuses]
        exact Function.update_self ..
      · cases stepped
  | errorClose socket =>
      simp only [StreamTables.step] at stepped
      split at stepped
      · obtain rfl := Option.some.inj stepped
        by_contra sending
        have closed : (tables.setStatus socket .closed).status socket = .closed :=
          Function.update_self ..
        have same : (tables.setStatus socket .closed).txConnections = tables.txConnections := rfl
        exact kept.not_alive sending same closed consistent
      · cases stepped

theorem initial_kept : ({} : StreamTables).Kept := by
  refine ⟨?_, inverse_empty, inverse_empty, fun socket => ⟨?_, ?_, ?_, fun _ => rfl⟩⟩
  · rintro streamId ⟨⟩
  · rintro streamId ⟨⟩
  · rintro ⟨⟩
  · rintro streamId ⟨⟩

/-- The tables are consistent throughout exactly the runs in which every name resolves, every
connect succeeds, connected streams have ids of 64 bits, and only accepted connections close. -/
theorem consistent_iff_regular (events : List Event)
    (ran : (run step ({} : StreamTables) events).isSome) :
    Throughout step Consistent {} events ↔ Guarded step Regular {} events :=
  throughout_iff_guarded_of (fun _ (kept : Kept _) => kept.consistent)
    (fun _ _ _ kept regular stepped => kept.step regular stepped)
    (fun _ _ _ kept stepped consistent => kept.regular stepped consistent)
    initial_kept ran

/-- A stream is connected and sent to, and an accepted connection closes. -/
def wellServed : List Event :=
  [.accepted (9, 1), .sendPendingPackets 7, .resolved 1 [(5, 80)] true, .buffered 7 [1],
    .connected 1, .sendPendingPackets 7, .normalClose 0]

theorem consistent_iff_regular_wellServed :
    Throughout step Consistent {} wellServed ↔ Guarded step Regular {} wellServed :=
  consistent_iff_regular wellServed (by decide +kernel)

/-- The stream from cybertwin 1 to cybertwin 2: the table of the connected sockets knows the second
one only. -/
theorem wideStream_truncated : ∃ tables,
    run step ({} : StreamTables)
        [.sendPendingPackets (2 ^ 64 + 2), .resolved 0 [(5, 80)] true, .connected 0] =
      some tables ∧ tables.txConnections (2 ^ 64 + 2) = some 0 ∧
      tables.txConnectionsReverse 0 = some 2 ∧ ¬ tables.Consistent := by
  refine ⟨_, rfl, by decide +kernel, by decide +kernel, ?_⟩
  intro consistent
  have inverse := (consistent.txInverse (2 ^ 64 + 2) 0).mp (by decide +kernel)
  exact absurd inverse (by decide +kernel)

end StreamTables

end FISim.Control
