import FISim.Lib.Transition
import FISim.Multipath.Server

/-!
The connection table of `CybertwinDataTransferServer`, for any clients: a path is
accepted with a key that `GenerateKey` has drawn, and reads whatever a client
sends.
-/

namespace FISim.ConnectionTable

open Transition

variable {Link : Type}

structure State (Link : Type) where
  server : CybertwinDataTransferServer Link := {}
  paths : Link → Option SinglePath := fun _ => none

inductive Action (Link : Type)
  | accepted (link : Link) (key : MpConnKey)
  | receives (link : Link) (unread : List Packet)
  | send (number : ℕ) (packet : Packet)
  deriving DecidableEq

def step [DecidableEq Link] (before : State Link) : Action Link → Option (State Link)
  | .accepted link key =>
      if before.paths link = none ∧ 0 < key ∧ key < 10000 then
        let path := before.server.pathCreatedCallback key
        some { before with paths := Function.update before.paths link (some path) }
      else none
  | .receives link unread => do
      let path ← before.paths link
      let done ← path.stateProcesser before.server link unread
      let paths := Function.update before.paths link (some done.path)
      return { server := done.server, paths }
  | .send number packet => do
      let conn ← before.server.connections[number]?
      let connections := before.server.connections.set number (conn.send packet).conn
      return { before with server := { before.server with connections } }

/-- The table names every connection by an id of its own, and a path is attached to the one that
its id names. -/
structure Sound (state : State Link) : Prop where
  distinct : (state.server.connections.map MultipathConnection.connID).Nodup
  mapped : ∀ (number : ℕ) (conn : MultipathConnection Link),
    state.server.connections[number]? = some conn →
      state.server.connectionIDs conn.connID = some number
  attached : ∀ link path number, state.paths link = some path → path.connection = some number →
    ∃ conn, state.server.connections[number]? = some conn ∧ conn.connID = path.connID ∧
      state.server.connectionIDs path.connID = some number

/-- The request of a first path that a listening path comes to, behind those that join. -/
def foundingRequest (server : CybertwinDataTransferServer Link) :
    List Packet → Option MultipathHeader
  | [] => none
  | packet :: rest => do
      let rcvHeader ← peekMultipathHeader packet
      if rcvHeader.connId = 0 then return rcvHeader
      else if server.validConnectionID rcvHeader.connId then foundingRequest server rest
      else none

/-- A connection is founded under keys that no other connection has. -/
def FreshKeys (state : State Link) : Action Link → Prop
  | .receives link unread => ∀ path ∈ state.paths link, path.pathState = .listen →
      ∀ request ∈ foundingRequest state.server unread,
        state.server.connectionIDs (spKeysToConnId request.senderKey path.localKey) = none
  | _ => True

def connIDs (server : CybertwinDataTransferServer Link) : List MpConnId :=
  server.connections.map MultipathConnection.connID

theorem connIDs_set {server : CybertwinDataTransferServer Link} {number : ℕ}
    {conn after : MultipathConnection Link} (found : server.connections[number]? = some conn)
    (same : after.connID = conn.connID) :
    (server.connections.set number after).map MultipathConnection.connID = connIDs server := by
  unfold connIDs
  apply List.ext_getElem?
  intro index
  rw [List.getElem?_map, List.getElem?_map, List.getElem?_set]
  split
  · rename_i here
    have inside := (List.getElem?_eq_some_iff.mp found).1
    rw [← here, if_pos inside, found, Option.map_some, Option.map_some, same]
  · rfl

theorem connIDs_length (server : CybertwinDataTransferServer Link) :
    (connIDs server).length = server.connections.length := List.length_map _

section Listen

variable {server : CybertwinDataTransferServer Link} {pointer : Link} {path : SinglePath}

/-- A path of a server listens until it is connected. -/
def Serving (path : SinglePath) : Prop := path.pathState = .listen ∨ path.pathState = .connected

/-- What the processing of a listening path makes of the table and of the path. -/
def Listened (server : CybertwinDataTransferServer Link) (path : SinglePath)
    (unread : List Packet) (done : Processed Link) : Prop :=
  match foundingRequest server unread with
  | some request =>
      let id := spKeysToConnId request.senderKey path.localKey
      done.server.connectionIDs =
          Function.update server.connectionIDs id (some server.connections.length) ∧
        connIDs done.server = connIDs server ++ [id] ∧
        done.path.connection = some server.connections.length ∧ done.path.connID = id
  | none =>
      done.server.connectionIDs = server.connectionIDs ∧ connIDs done.server = connIDs server ∧
        ((done.path.connection = path.connection ∧ done.path.connID = path.connID) ∨
          server.connectionIDs done.path.connID = done.path.connection)

theorem foundingRequest_congr {other : CybertwinDataTransferServer Link}
    (same : other.connectionIDs = server.connectionIDs) (unread : List Packet) :
    foundingRequest other unread = foundingRequest server unread := by
  induction unread with
  | nil => rfl
  | cons packet rest ih =>
      unfold foundingRequest CybertwinDataTransferServer.validConnectionID
      rw [same, ih]

theorem listenFirst_spec {request : MultipathHeader} {unread replies : List Packet}
    {done : Processed Link}
    (processed : path.listenFirst server pointer request unread replies = some done) :
    done.server.connectionIDs = Function.update server.connectionIDs
        (spKeysToConnId request.senderKey path.localKey) (some server.connections.length) ∧
      connIDs done.server =
        connIDs server ++ [spKeysToConnId request.senderKey path.localKey] ∧
      done.path.connection = some server.connections.length ∧
      done.path.connID = spKeysToConnId request.senderKey path.localKey ∧
      done.path.pathState = .connected := by
  simp only [SinglePath.listenFirst, CybertwinDataTransferServer.newConnectionBuilt,
    MultipathConnection.ofPath, if_true, Option.bind_eq_bind, Option.bind_some, Option.pure_def,
    Option.some.injEq] at processed
  rw [← processed]
  exact ⟨rfl, by simp [connIDs], rfl, rfl, rfl⟩

theorem listenJoin_spec {request : MultipathHeader}
    {after : CybertwinDataTransferServer Link} {joined : SinglePath} {reply : Packet}
    (valid : server.validConnectionID request.connId = true)
    (processed : path.listenJoin server pointer request = some (after, joined, reply)) :
    after.connectionIDs = server.connectionIDs ∧ connIDs after = connIDs server ∧
      after.connections.length = server.connections.length ∧
      server.connectionIDs joined.connID = joined.connection ∧
      joined.localKey = path.localKey ∧ joined.pathState = .connected := by
  unfold SinglePath.listenJoin at processed
  simp only [Option.bind_eq_bind, Option.bind_eq_some_iff] at processed
  obtain ⟨⟨table, attached⟩, joins, result⟩ := processed
  obtain ⟨rfl, rfl, -⟩ : table = after ∧ { attached with pathState := .connected } = joined ∧
      _ = reply := by simpa using result
  unfold CybertwinDataTransferServer.newPathJoinConnection at joins
  obtain ⟨number, named⟩ := Option.isSome_iff_exists.mp valid
  simp only [named, Option.bind_eq_bind, Option.bind_eq_some_iff] at joins
  obtain ⟨conn, found, added, adds, result⟩ := joins
  unfold MultipathConnection.addOtherConnectPath at adds
  split at adds
  · obtain ⟨rfl, rfl⟩ := Prod.mk.inj (Option.some.inj result)
    rw [← Option.some.inj adds]
    exact ⟨rfl, connIDs_set found rfl, List.length_set, named, rfl, rfl⟩
  · cases adds

theorem processListen_spec {unread replies : List Packet} {done : Processed Link}
    (serving : Serving path)
    (processed : path.processListen server pointer replies unread = some done) :
    Listened server path unread done ∧ Serving done.path := by
  induction unread generalizing server path replies with
  | nil =>
      rw [← Option.some.inj processed]
      exact ⟨⟨rfl, rfl, .inl ⟨rfl, rfl⟩⟩, serving⟩
  | cons packet rest ih =>
      unfold SinglePath.processListen at processed
      obtain ⟨rcvHeader, peeked, processed⟩ := Option.bind_eq_some_iff.mp processed
      rw [if_neg (by simp)] at processed
      unfold Listened foundingRequest
      simp only [peeked, Option.bind_eq_bind, Option.bind_some]
      by_cases first : rcvHeader.connId = 0
      · rw [if_pos first] at processed ⊢
        obtain ⟨ids, conns, connection, connID, connected⟩ := listenFirst_spec processed
        exact ⟨⟨ids, conns, connection, connID⟩, .inr connected⟩
      · rw [if_neg first] at processed ⊢
        by_cases valid : server.validConnectionID rcvHeader.connId = true
        · rw [if_pos valid] at processed ⊢
          obtain ⟨⟨after, joined, reply⟩, joins, processed⟩ := Option.bind_eq_some_iff.mp processed
          obtain ⟨ids, conns, length, attached, key, connected⟩ := listenJoin_spec valid joins
          obtain ⟨later, served⟩ := ih (.inr connected) processed
          refine ⟨?_, served⟩
          have requests : foundingRequest after rest = foundingRequest server rest :=
            foundingRequest_congr ids rest
          unfold Listened at later
          rw [requests, ids, conns, length, key] at later
          cases founds : foundingRequest server rest with
          | some request =>
              rw [founds] at later
              exact later
          | none =>
              rw [founds] at later
              obtain ⟨sameIds, sameConns, place⟩ := later
              refine ⟨sameIds, sameConns, .inr ?_⟩
              rcases place with ⟨connection, connID⟩ | named
              · rw [connection, connID, attached]
              · exact named
        · rw [if_neg valid] at processed ⊢
          rw [← Option.some.inj processed]
          exact ⟨⟨rfl, rfl, .inl ⟨rfl, rfl⟩⟩, serving⟩

theorem stateProcesser_spec {unread : List Packet} {done : Processed Link}
    (serving : Serving path)
    (processed : path.stateProcesser server pointer unread = some done) :
    Serving done.path ∧
      if path.pathState = .listen then Listened server path unread done
      else done.server = server ∧ done.path.connection = path.connection ∧
        done.path.connID = path.connID := by
  unfold SinglePath.stateProcesser at processed
  rcases serving with listening | connected
  · rw [if_pos listening]
    simp only [listening] at processed
    exact (processListen_spec (.inl listening) processed).symm
  · rw [if_neg (by simp [connected])]
    simp only [connected] at processed
    obtain ⟨⟨after, scheduled⟩, received, result⟩ := Option.bind_eq_some_iff.mp processed
    obtain ⟨-, -, rfl⟩ := SinglePath.processConnected_cases received
    rw [← Option.some.inj result]
    exact ⟨.inr connected, rfl, rfl, rfl⟩

end Listen

/-- The table holds the ids of the connections, one each, and every path that is attached. -/
structure Inv (state : State Link) : Prop where
  serving : ∀ link path, state.paths link = some path → Serving path
  known : ∀ (id : MpConnId) (number : ℕ), state.server.connectionIDs id = some number →
    (connIDs state.server)[number]? = some id
  mapped : ∀ (number : ℕ) (id : MpConnId), (connIDs state.server)[number]? = some id →
    state.server.connectionIDs id = some number
  attached : ∀ link path number, state.paths link = some path → path.connection = some number →
    state.server.connectionIDs path.connID = some number

theorem Inv.sound {state : State Link} (inv : Inv state) : Sound state where
  distinct := by
    rw [List.nodup_iff_injective_getElem]
    intro first second same
    have one := inv.mapped first _ (List.getElem?_eq_getElem first.2)
    have two := inv.mapped second _ (List.getElem?_eq_getElem second.2)
    beta_reduce at same
    rw [same, two] at one
    exact Fin.ext (Option.some.inj one).symm
  mapped number conn found := by
    apply inv.mapped
    rw [connIDs, List.getElem?_map, found]
    rfl
  attached link path number isPath connection := by
    have named := inv.attached link path number isPath connection
    have found := inv.known _ _ named
    rw [connIDs, List.getElem?_map, Option.map_eq_some_iff] at found
    obtain ⟨conn, isConn, same⟩ := found
    exact ⟨conn, isConn, same, named⟩

theorem Inv.initial (localCybertwinID : CybertwinId) :
    Inv ({ server := { localCybertwinID } } : State Link) where
  serving _ _ found := by cases found
  known _ _ found := by cases found
  mapped _ _ found := by simp [connIDs] at found
  attached _ _ _ found := by cases found

section Step

variable [DecidableEq Link] {state next : State Link} {action : Action Link}

theorem path_cases {paths : Link → Option SinglePath} {link place : Link}
    {path found : SinglePath}
    (isPath : Function.update paths link (some path) place = some found) :
    (place = link ∧ path = found) ∨ paths place = some found := by
  by_cases here : place = link
  · subst here
    rw [Function.update_self] at isPath
    exact .inl ⟨rfl, Option.some.inj isPath⟩
  · rw [Function.update_of_ne here] at isPath
    exact .inr isPath

theorem Inv.founded (inv : Inv state) {link : Link} {path : SinglePath}
    {server : CybertwinDataTransferServer Link} {id : MpConnId} (serving : Serving path)
    (fresh : state.server.connectionIDs id = none)
    (ids : server.connectionIDs =
      Function.update state.server.connectionIDs id (some state.server.connections.length))
    (conns : connIDs server = connIDs state.server ++ [id])
    (connection : path.connection = some state.server.connections.length)
    (connID : path.connID = id) :
    Inv { server, paths := Function.update state.paths link (some path) } := by
  have length := connIDs_length state.server
  have others : ∀ (other : MpConnId) (number : ℕ),
      state.server.connectionIDs other = some number → other ≠ id := by
    rintro other number named rfl
    rw [fresh] at named
    cases named
  constructor
  · intro place found isPath
    rcases path_cases isPath with ⟨-, rfl⟩ | old
    · exact serving
    · exact inv.serving place found old
  · intro other number named
    simp only [ids, conns] at named ⊢
    by_cases here : other = id
    · rw [here, Function.update_self] at named
      rw [← Option.some.inj named, ← length, List.getElem?_concat_length, here]
    · rw [Function.update_of_ne here] at named
      have found := inv.known other number named
      rwa [List.getElem?_append_left (List.getElem?_eq_some_iff.mp found).1]
  · intro number other found
    simp only [ids, conns] at found ⊢
    by_cases old : number < (connIDs state.server).length
    · rw [List.getElem?_append_left old] at found
      have named := inv.mapped number other found
      rw [Function.update_of_ne (others other number named), named]
    · have inside := (List.getElem?_eq_some_iff.mp found).1
      rw [List.length_append, List.length_singleton] at inside
      obtain rfl : number = (connIDs state.server).length := by omega
      rw [List.getElem?_concat_length] at found
      rw [← Option.some.inj found, Function.update_self, length]
  · intro place found number isPath attached
    simp only [ids]
    rcases path_cases isPath with ⟨-, rfl⟩ | old
    · rw [connID, Function.update_self, ← connection, attached]
    · have named := inv.attached place found number old attached
      rw [Function.update_of_ne (others _ number named), named]

theorem Inv.moved (inv : Inv state) {link : Link} {path : SinglePath}
    {server : CybertwinDataTransferServer Link} (serving : Serving path)
    (ids : server.connectionIDs = state.server.connectionIDs)
    (conns : connIDs server = connIDs state.server)
    (attached : ∀ number, path.connection = some number →
      state.server.connectionIDs path.connID = some number) :
    Inv { server, paths := Function.update state.paths link (some path) } := by
  constructor
  · intro place found isPath
    rcases path_cases isPath with ⟨-, rfl⟩ | old
    · exact serving
    · exact inv.serving place found old
  · simpa only [ids, conns] using inv.known
  · simpa only [ids, conns] using inv.mapped
  · intro place found number isPath connection
    simp only [ids]
    rcases path_cases isPath with ⟨-, rfl⟩ | old
    · exact attached number connection
    · exact inv.attached place found number old connection

theorem step_inv (inv : Inv state) (fresh : FreshKeys state action)
    (stepped : step state action = some next) : Inv next := by
  cases action with
  | accepted link key =>
      simp only [step] at stepped
      split at stepped
      · rw [← Option.some.inj stepped]
        exact inv.moved (.inl rfl) rfl rfl (fun number contrary => by cases contrary)
      · cases stepped
  | receives link unread =>
      simp only [step, Option.bind_eq_bind, Option.bind_eq_some_iff] at stepped
      obtain ⟨path, isPath, done, processed, result⟩ := stepped
      rw [← Option.some.inj result]
      obtain ⟨serving, did⟩ := stateProcesser_spec (inv.serving link path isPath) processed
      by_cases listening : path.pathState = .listen
      · rw [if_pos listening] at did
        unfold Listened at did
        cases founds : foundingRequest state.server unread with
        | some request =>
            rw [founds] at did
            obtain ⟨ids, conns, connection, connID⟩ := did
            exact inv.founded serving (fresh path isPath listening request founds) ids conns
              connection connID
        | none =>
            rw [founds] at did
            obtain ⟨ids, conns, place⟩ := did
            apply inv.moved serving ids conns
            intro number attached
            rcases place with ⟨connection, connID⟩ | named
            · rw [connID]
              rw [connection] at attached
              exact inv.attached link path number isPath attached
            · rw [named, attached]
      · rw [if_neg listening] at did
        obtain ⟨same, connection, connID⟩ := did
        apply inv.moved serving (by rw [same]) (by rw [same])
        intro number attached
        rw [connID]
        rw [connection] at attached
        exact inv.attached link path number isPath attached
  | send number packet =>
      simp only [step, Option.bind_eq_bind, Option.bind_eq_some_iff] at stepped
      obtain ⟨conn, found, result⟩ := stepped
      rw [← Option.some.inj result]
      have same : (conn.send packet).conn.connID = conn.connID := by
        by_cases empty : getSize packet = 0
        · rw [MultipathConnection.send_empty conn empty]
        · rw [MultipathConnection.send_filled conn empty]
      have conns := connIDs_set found same
      constructor
      · exact inv.serving
      · intro id index named
        change ((state.server.connections.set number _).map _)[index]? = _
        rw [conns]
        exact inv.known id index named
      · intro index id held
        change ((state.server.connections.set number _).map _)[index]? = _ at held
        rw [conns] at held
        exact inv.mapped index id held
      · exact inv.attached

theorem freshKeys_of_sound (inv : Inv state) (stepped : step state action = some next)
    (sound : Sound next) : FreshKeys state action := by
  cases action with
  | accepted link key => trivial
  | receives link unread =>
      simp only [step, Option.bind_eq_bind, Option.bind_eq_some_iff] at stepped
      obtain ⟨path, isPath, done, processed, result⟩ := stepped
      intro other isOther listening request founds
      obtain rfl := Option.some.inj (isPath.symm.trans isOther)
      obtain ⟨-, did⟩ := stateProcesser_spec (inv.serving link path isPath) processed
      rw [if_pos listening] at did
      unfold Listened at did
      rw [founds] at did
      obtain ⟨-, conns, -, -⟩ := did
      have distinct := sound.distinct
      rw [← Option.some.inj result] at distinct
      change (connIDs done.server).Nodup at distinct
      rw [conns, List.nodup_append] at distinct
      by_contra named
      obtain ⟨number, named⟩ := Option.ne_none_iff_exists'.mp named
      exact distinct.2.2 _ (List.mem_of_getElem? (inv.known _ number named)) _
        List.mem_cons_self rfl
  | send number packet => trivial

/-- The table is sound in every state of a run exactly if no connection of the run is founded
under the keys of an earlier one. -/
theorem table_sound_iff (localCybertwinID : CybertwinId) (actions : List (Action Link))
    (ran : (run step { server := { localCybertwinID } } actions).isSome) :
    Throughout step Sound { server := { localCybertwinID } } actions ↔
      Guarded step FreshKeys { server := { localCybertwinID } } actions :=
  throughout_iff_guarded_of (fun _ inv => inv.sound)
    (fun _ _ _ inv fresh stepped => step_inv inv fresh stepped)
    (fun _ _ _ inv stepped sound => freshKeys_of_sound inv stepped sound)
    (Inv.initial localCybertwinID) ran

end Step

def firstRequest (senderKey : MpConnKey) : Packet :=
  let header : MultipathHeader := { senderKey }
  header.serialize

theorem table_sound_iff_oneClient :
    Throughout step Sound ({ server := { localCybertwinID := 3 } } : State Bool)
        [.accepted false 17, .receives false [firstRequest 5]] ↔
      Guarded step FreshKeys ({ server := { localCybertwinID := 3 } } : State Bool)
        [.accepted false 17, .receives false [firstRequest 5]] :=
  table_sound_iff 3 [.accepted false 17, .receives false [firstRequest 5]] (by decide +kernel)

/-- Two clients of one key, to whose paths `GenerateKey` gives one key too, found two connections
of one id. -/
theorem sameKeys_notSound :
    ¬ Throughout step Sound ({ server := { localCybertwinID := 3 } } : State Bool)
        [.accepted false 17, .accepted true 17, .receives false [firstRequest 5],
          .receives true [firstRequest 5]] := by
  intro sound
  have last := sound _ [] _ (List.append_nil _).symm rfl
  exact absurd last.distinct (by decide +kernel)

end FISim.ConnectionTable
