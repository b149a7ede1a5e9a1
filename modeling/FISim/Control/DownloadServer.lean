import FISim.Control.AppDownloadServer

/-!
`DownloadServer`: the connections of one server, which keep the event of their
last `BulkSend` in one place.
-/

namespace FISim.Control

open Transition

/-- Sockets and events are numbers, and `pending` are the `BulkSend` events that are scheduled, with
their sockets.  `sockets`, `closed` and `cancelled` are not the program's: the accepted sockets, the
closed ones, and for every cancelled event the connection that was closing and the one the event
was for. -/
structure DownloadServer where
  sendBytes : ℕ → ℕ := fun _ => 0
  sendEvent : Option ℕ := none
  pending : List (ℕ × ℕ) := []
  nextEvent : ℕ := 0
  sockets : List ℕ := []
  closed : List ℕ := []
  cancelled : List (ℕ × ℕ) := []

namespace DownloadServer

/-- An event is given by its number, and `sendSize` is what the socket answers to `Send`. -/
inductive Event
  | connCreated (socket : ℕ)
  | bulkSend (event : ℕ) (sendSize : Int)
  | normalClose (socket : ℕ)
  | errorClose (socket : ℕ)
  deriving DecidableEq, Repr

def maxSendBytes : ℕ := 100 * 1024 * 1024

variable (server : DownloadServer)

def scheduleBulkSend (socket : ℕ) : DownloadServer :=
  { server with
    sendEvent := some server.nextEvent
    pending := server.pending ++ [(server.nextEvent, socket)]
    nextEvent := server.nextEvent + 1 }

def connCreatedCallback (socket : ℕ) : DownloadServer :=
  { server with
    sendBytes := Function.update server.sendBytes socket 0
    sockets := socket :: server.sockets }.scheduleBulkSend socket

def bulkSend (socket : ℕ) (sendSize : Int) : DownloadServer :=
  if server.sendBytes socket ≥ maxSendBytes then { server with closed := socket :: server.closed }
  else if sendSize ≤ 0 then server.scheduleBulkSend socket
  else { server with
    sendBytes := Function.update server.sendBytes socket
      (server.sendBytes socket + sendSize.toNat) }.scheduleBulkSend socket

/-- The socket of the event that `m_sendEvent` names, if that is running. -/
def running : Option ℕ := do
  let event ← server.sendEvent
  (server.pending.find? fun scheduled => scheduled.1 = event).map Prod.snd

/-- Both close callbacks, with the connection that closes. -/
def closeCallback (socket : ℕ) : DownloadServer :=
  match server.running with
  | none => { server with closed := socket :: server.closed }
  | some sending =>
      { server with
        pending := server.pending.filter fun scheduled => server.sendEvent ≠ some scheduled.1
        closed := socket :: server.closed
        cancelled := (socket, sending) :: server.cancelled }

def step : Event → Option DownloadServer
  | .connCreated socket =>
      if socket ∈ server.sockets then none else some (server.connCreatedCallback socket)
  | .bulkSend event sendSize => do
      let scheduled ← server.pending.find? fun scheduled => scheduled.1 = event
      if sendSize ≤ systemPacketSize then
        return { server with pending := server.pending.erase scheduled }.bulkSend scheduled.2
          sendSize
      else none
  | .normalClose socket =>
      if socket ∈ server.sockets then some (server.closeCallback socket) else none
  | .errorClose socket =>
      if socket ∈ server.sockets then some (server.closeCallback socket) else none

structure Independent : Prop where
  own : ∀ cancelled ∈ server.cancelled, cancelled.1 = cancelled.2
  stopped : ∀ socket ∈ server.closed, socket ∉ server.pending.map Prod.snd

/-- `m_sendEvent` is the event of the connection that closes, and if it is not running that
connection has none. -/
def NamesOwn (socket : ℕ) : Prop :=
  match server.running with
  | none => socket ∉ server.pending.map Prod.snd
  | some sending => sending = socket

def ClosesOwn : Event → Prop
  | .normalClose socket => server.NamesOwn socket
  | .errorClose socket => server.NamesOwn socket
  | _ => True

instance (socket : ℕ) : Decidable (server.NamesOwn socket) := by
  unfold NamesOwn
  split <;> infer_instance

instance (event : Event) : Decidable (server.ClosesOwn event) := by
  cases event <;> unfold ClosesOwn <;> infer_instance

structure Kept : Prop where
  events : (server.pending.map Prod.fst).Nodup
  earlier : ∀ event ∈ server.pending.map Prod.fst, event < server.nextEvent
  single : (server.pending.map Prod.snd).Nodup
  known : ∀ socket ∈ server.pending.map Prod.snd, socket ∈ server.sockets
  closedKnown : ∀ socket ∈ server.closed, socket ∈ server.sockets
  independent : server.Independent

variable {server} {next : DownloadServer}

theorem running_some {sending : ℕ} (runs : server.running = some sending) :
    ∃ event, server.sendEvent = some event ∧ (event, sending) ∈ server.pending := by
  obtain ⟨event, named, found⟩ := Option.bind_eq_some_iff.mp runs
  obtain ⟨⟨number, socket⟩, first, rfl⟩ := Option.map_eq_some_iff.mp found
  have same : number = event := by simpa using List.find?_some first
  rw [← same] at named
  exact ⟨number, named, List.mem_of_find?_eq_some first⟩

theorem Kept.sublist (kept : server.Kept) {fewer : List (ℕ × ℕ)}
    (sub : fewer.Sublist server.pending) : ({ server with pending := fewer } : DownloadServer).Kept := by
  have sockets : ∀ socket ∈ fewer.map Prod.snd, socket ∈ server.pending.map Prod.snd :=
    fun socket member => (sub.map Prod.snd).subset member
  refine ⟨kept.events.sublist (sub.map Prod.fst), ?_, kept.single.sublist (sub.map Prod.snd), ?_,
    kept.closedKnown, kept.independent.own, ?_⟩
  · exact fun event member => kept.earlier event ((sub.map Prod.fst).subset member)
  · exact fun socket member => kept.known socket (sockets socket member)
  · exact fun socket closed member => kept.independent.stopped socket closed (sockets socket member)

theorem Kept.scheduleBulkSend (kept : server.Kept) {socket : ℕ} (known : socket ∈ server.sockets)
    (open_ : socket ∉ server.closed) (free : socket ∉ server.pending.map Prod.snd) :
    (server.scheduleBulkSend socket).Kept := by
  refine ⟨?_, ?_, ?_, ?_, kept.closedKnown, kept.independent.own, ?_⟩
  · simp only [DownloadServer.scheduleBulkSend, List.map_append, List.map_cons, List.map_nil]
    refine kept.events.append (List.nodup_singleton _) ?_
    intro event member last
    rw [List.mem_singleton.mp last] at member
    exact absurd (kept.earlier _ member) (Nat.lt_irrefl _)
  · intro event member
    simp only [DownloadServer.scheduleBulkSend, List.map_append, List.mem_append, List.map_cons,
      List.map_nil, List.mem_singleton] at member ⊢
    rcases member with before | rfl
    · exact Nat.lt_succ_of_lt (kept.earlier event before)
    · exact Nat.lt_succ_self _
  · simp only [DownloadServer.scheduleBulkSend, List.map_append, List.map_cons, List.map_nil]
    refine kept.single.append (List.nodup_singleton _) ?_
    intro other member last
    rw [List.mem_singleton.mp last] at member
    exact free member
  · intro other member
    simp only [DownloadServer.scheduleBulkSend, List.map_append, List.mem_append, List.map_cons,
      List.map_nil, List.mem_singleton] at member
    rcases member with before | rfl
    · exact kept.known other before
    · exact known
  · intro other closed member
    simp only [DownloadServer.scheduleBulkSend, List.map_append, List.mem_append, List.map_cons,
      List.map_nil, List.mem_singleton] at member
    rcases member with before | rfl
    · exact kept.independent.stopped other closed before
    · exact open_ closed

theorem Kept.counts (kept : server.Kept) (sendBytes : ℕ → ℕ) :
    ({ server with sendBytes } : DownloadServer).Kept :=
  ⟨kept.events, kept.earlier, kept.single, kept.known, kept.closedKnown, kept.independent.own,
    kept.independent.stopped⟩

theorem Kept.connCreatedCallback (kept : server.Kept) {socket : ℕ}
    (fresh : socket ∉ server.sockets) : (server.connCreatedCallback socket).Kept := by
  have free : socket ∉ server.pending.map Prod.snd := fun member => fresh (kept.known socket member)
  have made : ({ server with
      sendBytes := Function.update server.sendBytes socket 0
      sockets := socket :: server.sockets } : DownloadServer).Kept := by
    refine ⟨kept.events, kept.earlier, kept.single, ?_, ?_, kept.independent.own,
      kept.independent.stopped⟩
    · exact fun other member => List.mem_cons_of_mem socket (kept.known other member)
    · exact fun other member => List.mem_cons_of_mem socket (kept.closedKnown other member)
  exact made.scheduleBulkSend List.mem_cons_self
    (fun closed => fresh (kept.closedKnown socket closed)) free

theorem nodup_erase_snd {pending : List (ℕ × ℕ)} (single : (pending.map Prod.snd).Nodup)
    {scheduled : ℕ × ℕ} (member : scheduled ∈ pending) :
    scheduled.2 ∉ (pending.erase scheduled).map Prod.snd := by
  have permuted := (List.perm_cons_erase member).map Prod.snd
  have distinct := permuted.nodup_iff.mp single
  exact (List.nodup_cons.mp distinct).1

theorem Kept.bulkSend (kept : server.Kept) {scheduled : ℕ × ℕ} (member : scheduled ∈ server.pending)
    (sendSize : Int) :
    ({ server with pending := server.pending.erase scheduled }.bulkSend scheduled.2
      sendSize).Kept := by
  have fewer := kept.sublist (List.erase_sublist (a := scheduled))
  have listed : scheduled.2 ∈ server.pending.map Prod.snd := List.mem_map_of_mem member
  have known := kept.known scheduled.2 listed
  have open_ : scheduled.2 ∉ server.closed :=
    fun closed => kept.independent.stopped scheduled.2 closed listed
  have free := nodup_erase_snd kept.single member
  unfold DownloadServer.bulkSend
  dsimp only
  split
  · refine ⟨fewer.events, fewer.earlier, fewer.single, fewer.known, ?_, fewer.independent.own, ?_⟩
    · intro socket closed
      rcases List.mem_cons.mp closed with rfl | before
      · exact known
      · exact fewer.closedKnown socket before
    · intro socket closed
      rcases List.mem_cons.mp closed with rfl | before
      · exact free
      · exact fewer.independent.stopped socket before
  · split
    · exact fewer.scheduleBulkSend known open_ free
    · exact (fewer.counts _).scheduleBulkSend known open_ free

theorem Kept.closeCallback (kept : server.Kept) {socket : ℕ} (known : socket ∈ server.sockets)
    (names : server.NamesOwn socket) : (server.closeCallback socket).Kept := by
  have closedKnown : ∀ other ∈ socket :: server.closed, other ∈ server.sockets := by
    intro other closed
    rcases List.mem_cons.mp closed with rfl | before
    · exact known
    · exact kept.closedKnown other before
  rw [NamesOwn] at names
  unfold DownloadServer.closeCallback
  cases runs : server.running with
  | none =>
      rw [runs] at names
      refine ⟨kept.events, kept.earlier, kept.single, kept.known, closedKnown,
        kept.independent.own, ?_⟩
      intro other closed
      rcases List.mem_cons.mp closed with rfl | before
      · exact names
      · exact kept.independent.stopped other before
  | some sending =>
      rw [runs] at names
      dsimp only at names
      obtain ⟨event, named, inside⟩ := running_some runs
      have fewer := kept.sublist
        (List.filter_sublist (p := fun scheduled => server.sendEvent ≠ some scheduled.1))
      refine ⟨fewer.events, fewer.earlier, fewer.single, fewer.known, closedKnown, ?_, ?_⟩
      · intro cancelled member
        rcases List.mem_cons.mp member with rfl | before
        · exact names.symm
        · exact kept.independent.own cancelled before
      · intro other closed
        rcases List.mem_cons.mp closed with rfl | before
        · intro still
          obtain ⟨scheduled, left, isSocket⟩ := List.mem_map.mp still
          obtain ⟨left, other⟩ := List.mem_filter.mp left
          have same : scheduled = (event, sending) :=
            List.inj_on_of_nodup_map kept.single left inside (isSocket.trans names.symm)
          simp [same, named] at other
        · exact fewer.independent.stopped other before

theorem step_cases {event : Event} (stepped : server.step event = some next) :
    (∃ socket, socket ∉ server.sockets ∧ event = .connCreated socket ∧
      next = server.connCreatedCallback socket) ∨
    (∃ scheduled ∈ server.pending, ∃ sendSize, event = .bulkSend scheduled.1 sendSize ∧
      next = { server with pending := server.pending.erase scheduled }.bulkSend scheduled.2
        sendSize) ∨
    ∃ socket ∈ server.sockets, (event = .normalClose socket ∨ event = .errorClose socket) ∧
      next = server.closeCallback socket := by
  cases event with
  | connCreated socket =>
      simp only [step] at stepped
      split at stepped
      · cases stepped
      · rename_i fresh
        exact Or.inl ⟨socket, fresh, rfl, (Option.some.inj stepped).symm⟩
  | bulkSend event sendSize =>
      obtain ⟨scheduled, found, stepped⟩ := Option.bind_eq_some_iff.mp stepped
      have same : scheduled.1 = event := by simpa using List.find?_some found
      split at stepped
      · exact Or.inr (Or.inl ⟨scheduled, List.mem_of_find?_eq_some found, sendSize, by rw [same],
          (Option.some.inj stepped).symm⟩)
      · cases stepped
  | normalClose socket =>
      simp only [step] at stepped
      split at stepped
      · rename_i known
        exact Or.inr (Or.inr ⟨socket, known, Or.inl rfl, (Option.some.inj stepped).symm⟩)
      · cases stepped
  | errorClose socket =>
      simp only [step] at stepped
      split at stepped
      · rename_i known
        exact Or.inr (Or.inr ⟨socket, known, Or.inr rfl, (Option.some.inj stepped).symm⟩)
      · cases stepped

theorem Kept.step (kept : server.Kept) {event : Event} (closes : server.ClosesOwn event)
    (stepped : server.step event = some next) : next.Kept := by
  obtain ⟨socket, fresh, rfl, rfl⟩ | ⟨scheduled, member, sendSize, rfl, rfl⟩ |
    ⟨socket, known, isClose, rfl⟩ := step_cases stepped
  · exact kept.connCreatedCallback fresh
  · exact kept.bulkSend member sendSize
  · refine kept.closeCallback known ?_
    rcases isClose with rfl | rfl
    · exact closes
    · exact closes

theorem namesOwn_of_independent {socket : ℕ} (independent : (server.closeCallback socket).Independent) :
    server.NamesOwn socket := by
  unfold closeCallback at independent
  rw [NamesOwn]
  cases runs : server.running with
  | none =>
      rw [runs] at independent
      exact independent.stopped socket List.mem_cons_self
  | some sending =>
      rw [runs] at independent
      exact (independent.own (socket, sending) List.mem_cons_self).symm

theorem closesOwn_of_independent {event : Event} (stepped : server.step event = some next)
    (independent : next.Independent) : server.ClosesOwn event := by
  obtain ⟨socket, fresh, rfl, rfl⟩ | ⟨scheduled, member, sendSize, rfl, rfl⟩ |
    ⟨socket, known, rfl | rfl, rfl⟩ := step_cases stepped
  · trivial
  · trivial
  · exact namesOwn_of_independent independent
  · exact namesOwn_of_independent independent

theorem initial_kept : ({} : DownloadServer).Kept := by
  refine ⟨List.nodup_nil, ?_, List.nodup_nil, ?_, ?_, ?_, ?_⟩
  · rintro event ⟨⟩
  · rintro socket ⟨⟩
  · rintro socket ⟨⟩
  · rintro cancelled ⟨⟩
  · rintro socket ⟨⟩

/-- The connections are independent exactly where each one that closes finds its own event in the
one place, or that of none while it has none itself. -/
theorem independent_iff_closesOwn (events : List Event)
    (ran : (run step ({} : DownloadServer) events).isSome) :
    Throughout step Independent {} events ↔ Guarded step ClosesOwn {} events :=
  throughout_iff_guarded_of (fun _ (kept : Kept _) => kept.independent)
    (fun _ _ _ kept closes stepped => kept.step closes stepped)
    (fun _ _ _ _ stepped independent => closesOwn_of_independent stepped independent)
    initial_kept ran

/-- The second connection closes right after it was sent to. -/
theorem independent_iff_closesOwn_inTurn :
    Throughout step Independent {} [.connCreated 0, .connCreated 1, .bulkSend 0 536,
        .bulkSend 1 (-1), .normalClose 1, .bulkSend 2 100] ↔
      Guarded step ClosesOwn {} [.connCreated 0, .connCreated 1, .bulkSend 0 536,
        .bulkSend 1 (-1), .normalClose 1, .bulkSend 2 100] :=
  independent_iff_closesOwn _ (by decide +kernel)

/-- The first connection closes while the second was sent to last: the second is cut off, and the
first is sent to for ever. -/
theorem close_cancels_other : ∃ server,
    run step ({} : DownloadServer) [.connCreated 0, .connCreated 1, .normalClose 0] = some server ∧
      server.pending = [(0, 0)] ∧ server.closed = [0] ∧ server.cancelled = [(0, 1)] ∧
      ¬ server.Independent := by
  refine ⟨_, rfl, by decide +kernel, by decide +kernel, by decide +kernel, ?_⟩
  intro independent
  exact absurd (independent.own (0, 1) (by decide +kernel)) (by decide)

end DownloadServer

end FISim.Control
