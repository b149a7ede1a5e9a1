import FISim.Multipath.Closing
import FISim.Multipath.HandshakeClient

/-!
The set-up of one connection of a client, once `OnCybertwinInterfaceResolved` has
started its paths.  They connect, fail, read what is sent to them and close in
any order, and what the host has pending runs in any order.
-/

namespace FISim.SetUp

open Handshake Transition

/-- The callbacks of `SetConnectCallback`. -/
inductive Notice
  | succeeded
  | failed
  deriving DecidableEq

-- What an onlooker has seen of the host.
structure History where
  built : ℕ := 0
  ready : List ℕ := []
  inits : List ℕ := []
  answered : List ℕ := []
  joins : List ℕ := []
  notices : List Notice := []
  deriving DecidableEq

structure State where
  host : ClientHost
  dialing : List ℕ
  history : History := {}

inductive Action
  | connected (index : ℕ)
  | failed (index : ℕ)
  | closed (index : ℕ) (normally : Bool)
  | receives (index : ℕ) (packets : List Packet)
  | event (event : ClientEvent)

-- `sent` are the paths whose sockets an event sends on.  No event calls
-- `m_connectFailedCallback`, and `AddInitConnectPath` alone calls `m_connectSucceedCallback`.
def History.record (history : History) (sent : List ℕ) : ClientEvent → History
  | .buildConnection =>
      { history with built := history.built + 1, inits := history.inits ++ sent }
  | .addInitConnectPath _ => { history with notices := history.notices ++ [.succeeded] }
  | .connectOtherPath => { history with joins := history.joins ++ sent }
  | .pathJoinResult _ _ => history
  | .pathRecvedData _ => history

def step (before : State) : Action → Option State
  | .connected index =>
      if index ∈ before.dialing then
        let path := (before.host.paths index).pathConnectSucceeded
        some { before with
          host := addRawPath before.host index path true
          dialing := before.dialing.erase index
          history := { before.history with ready := before.history.ready ++ [index] } }
      else none
  | .failed index =>
      if index ∈ before.dialing then
        let path := (before.host.paths index).pathConnectFailed
        some { before with
          host := addRawPath before.host index path false
          dialing := before.dialing.erase index }
      else none
  | .closed index normally =>
      let path := before.host.paths index
      let path := if normally then path.pathCloseSucceeded else path.pathCloseFailed
      some { before with
        host := { before.host with paths := Function.update before.host.paths index path } }
  | .receives index packets => do
      let path := before.host.paths index
      let done ← path.stateProcesser noServer index packets
      let answered := if path.pathState = .buildSent ∧ packets ≠ [] then [index] else []
      return { before with
        host := { before.host with
          paths := Function.update before.host.paths index done.path,
          pending := before.host.pending ++ done.scheduled.map (ClientEvent.ofPath index) }
        history := { before.history with answered := before.history.answered ++ answered } }
  | .event event =>
      if event ∈ before.host.pending then do
        let (host, sent) ←
          runEvent { before.host with pending := before.host.pending.erase event } event
        return { before with
          host, history := before.history.record (sent.map Prod.fst) event }
      else none

structure Initial (start : State) : Prop where
  dialing : start.dialing = List.range start.host.conn.pathNum
  rawReadyPath : start.host.conn.rawReadyPath = []
  rawFailPath : start.host.conn.rawFailPath = []
  pending : start.host.pending = []
  paths : ∀ index, (start.host.paths index).pathState = .init
  history : start.history = {}

def setsUp : ClientEvent → Bool
  | .buildConnection => true
  | .addInitConnectPath _ => true
  | .connectOtherPath => true
  | .pathJoinResult _ _ => false
  | .pathRecvedData _ => false

def scheduled (host : ClientHost) : List ClientEvent := host.pending.filter setsUp

structure AtMostOnce (state : State) : Prop where
  built : state.history.built ≤ 1
  last : state.history.built = 1 → state.dialing = []
  inits : state.history.inits.length ≤ 1
  joins : state.history.joins.Nodup
  notices : state.history.notices.length ≤ 1

structure Completed (state : State) : Prop where
  built : state.history.built = 1
  someReady : state.history.ready ≠ [] → ∃ first others,
    state.history.ready.Perm (first :: others) ∧ state.history.inits = [first] ∧
      if first ∈ state.history.answered then
        state.history.joins.Perm others ∧ state.history.notices = [.succeeded]
      else state.history.joins = [] ∧ state.history.notices = []
  noneReady : state.history.ready = [] →
    state.history.inits = [] ∧ state.history.joins = [] ∧ state.history.notices = [.failed]

/-- Nothing happens twice, what is scheduled can happen, and once the outcomes are in and it has
happened the set-up is complete. -/
structure SetUpOnce (state : State) : Prop where
  once : AtMostOnce state
  goes : ∀ event ∈ scheduled state.host, (step state (.event event)).isSome
  completes : state.dialing = [] → scheduled state.host = [] → Completed state

def SomeReady (state : State) : Action → Prop
  | .event .buildConnection => state.history.ready ≠ []
  | _ => True

instance : ∀ state action, Decidable (SomeReady state action)
  | state, .event .buildConnection => inferInstanceAs (Decidable (state.history.ready ≠ []))
  | _, .event (.addInitConnectPath _) => isTrue trivial
  | _, .event .connectOtherPath => isTrue trivial
  | _, .event (.pathJoinResult _ _) => isTrue trivial
  | _, .event (.pathRecvedData _) => isTrue trivial
  | _, .connected _ => isTrue trivial
  | _, .failed _ => isTrue trivial
  | _, .closed _ _ => isTrue trivial
  | _, .receives _ _ => isTrue trivial

theorem processJoinSent_kept {packets : List Packet} {path after : SinglePath}
    {events : List PathEvent} (processed : path.processJoinSent packets = some (after, events)) :
    after.connID = path.connID ∧ .addInitConnectPath ∉ events := by
  induction packets generalizing path after events with
  | nil =>
      simp only [SinglePath.processJoinSent, Option.some.injEq, Prod.mk.injEq] at processed
      simp [← processed.1, ← processed.2]
  | cons packet rest ih =>
      rw [SinglePath.processJoinSent_cons] at processed
      obtain ⟨recvHeader, _, processed⟩ := Option.bind_eq_some_iff.mp processed
      obtain ⟨later, loop, result⟩ := Option.bind_eq_some_iff.mp processed
      simp only [Option.some.injEq, Prod.mk.injEq] at result
      obtain ⟨kept, clean⟩ := ih loop
      rw [← result.1, ← result.2]
      exact ⟨kept, by simpa using clean⟩

theorem processJoinSent_pathState {packets : List Packet} {path after : SinglePath}
    {events : List PathEvent} (joining : path.pathState = .joinSent)
    (processed : path.processJoinSent packets = some (after, events)) :
    after.pathState ≠ .buildSent ∧ after.pathState ≠ .listen := by
  by_cases empty : packets = []
  · subst empty
    simp only [SinglePath.processJoinSent, Option.some.injEq, Prod.mk.injEq] at processed
    simp [← processed.1, joining]
  · rcases SinglePath.processJoinSent_settled processed (Or.inr (Or.inr empty)) with same | same
    · simp [same]
    · simp [same]

theorem buildSentLoop_connID {packets : List Packet} {path after : SinglePath}
    (looped : path.buildSentLoop packets = some after)
    (started : path.connID ≠ 0 ∨ packets ≠ []) : after.connID ≠ 0 := by
  induction packets generalizing path with
  | nil =>
      simp only [SinglePath.buildSentLoop, Option.some.injEq] at looped
      subst looped
      simpa using started
  | cons packet rest ih =>
      rw [SinglePath.buildSentLoop_cons] at looped
      obtain ⟨rcvHeader, _, looped⟩ := Option.bind_eq_some_iff.mp looped
      split at looped
      · rename_i valid
        exact ih looped (Or.inl valid.1)
      · simp at looped

/-- What a client's path does with what it reads. -/
inductive Reads (path : SinglePath) (packets : List Packet) (done : Processed ℕ) : Prop
  | answer (asking : path.pathState = .buildSent) (filled : packets ≠ [])
      (schedules : done.scheduled = [.addInitConnectPath])
      (connected : done.path.pathState = .connected) (identified : done.path.connID ≠ 0)
  | other (notAnswered : ¬ (path.pathState = .buildSent ∧ packets ≠ []))
      (schedules : .addInitConnectPath ∉ done.scheduled)
      (connID : done.path.connID = path.connID)
      (asking : done.path.pathState = .buildSent → path.pathState = .buildSent)
      (listening : done.path.pathState ≠ .listen)

theorem stateProcesser_reads {path : SinglePath} {index : ℕ} {packets : List Packet}
    {done : Processed ℕ} (notListening : path.pathState ≠ .listen)
    (processed : path.stateProcesser noServer index packets = some done) :
    Reads path packets done := by
  unfold SinglePath.stateProcesser at processed
  split at processed
  · rename_i asking
    obtain ⟨⟨after, events⟩, ran, result⟩ := Option.bind_eq_some_iff.mp processed
    obtain ⟨looped, loop, events_eq⟩ := Option.bind_eq_some_iff.mp ran
    obtain rfl := Option.some.inj result
    by_cases empty : packets = []
    · subst empty
      obtain rfl := Option.some.inj loop
      simp only [asking, reduceCtorEq, if_false, Option.pure_def, Option.some.injEq,
        Prod.mk.injEq] at events_eq
      obtain ⟨rfl, rfl⟩ := events_eq
      exact .other (by simp) (by simp) rfl id (by simp [asking])
    · have connected := SinglePath.buildSentLoop_connected loop (Or.inr empty)
      simp only [connected, if_true, Option.pure_def, Option.some.injEq,
        Prod.mk.injEq] at events_eq
      obtain ⟨rfl, rfl⟩ := events_eq
      exact .answer asking empty rfl connected (buildSentLoop_connID loop (Or.inr empty))
  · contradiction
  · rename_i joining
    obtain ⟨⟨after, events⟩, ran, result⟩ := Option.bind_eq_some_iff.mp processed
    obtain rfl := Option.some.inj result
    obtain ⟨connID, clean⟩ := processJoinSent_kept ran
    obtain ⟨notAsking, notListen⟩ := processJoinSent_pathState joining ran
    exact .other (by simp [joining]) clean connID (fun asks => absurd asks notAsking) notListen
  · rename_i connected
    obtain ⟨⟨after, events⟩, ran, result⟩ := Option.bind_eq_some_iff.mp processed
    obtain rfl := Option.some.inj result
    obtain ⟨_, rfl, rfl⟩ := SinglePath.processConnected_cases ran
    exact .other (by simp [connected]) (by simp) rfl (by simp [connected]) (by simp [connected])
  all_goals
    rename_i resting
    obtain rfl := Option.some.inj processed
    exact .other (by simp [resting]) (by simp) rfl id (by simp [resting])

inductive Phase
  | dialing (ready : List ℕ)
  | asked (first : ℕ) (others : List ℕ)
  | answered (first : ℕ) (others : List ℕ)
  | connected (first : ℕ) (others : List ℕ)
  | joined (first : ℕ) (others : List ℕ)

namespace Phase

def rawReady : Phase → List ℕ
  | dialing ready => ready
  | asked _ others => others
  | answered _ others => others
  | connected _ others => others
  | joined _ _ => []

def pending (waiting : List ℕ) : Phase → List ClientEvent
  | dialing _ => if waiting = [] then [.buildConnection] else []
  | asked _ _ => []
  | answered first _ => [.addInitConnectPath first]
  | connected _ _ => [.connectOtherPath]
  | joined _ _ => []

def history : Phase → History
  | dialing ready => { ready }
  | asked first others => { built := 1, ready := first :: others, inits := [first] }
  | answered first others =>
      { built := 1, ready := first :: others, inits := [first], answered := [first] }
  | connected first others =>
      { built := 1, ready := first :: others, inits := [first], answered := [first],
        notices := [.succeeded] }
  | joined first others =>
      { built := 1, ready := first :: others, inits := [first], answered := [first],
        notices := [.succeeded], joins := others }

end Phase

structure Inv (phase : Phase) (state : State) : Prop where
  outcomes : (state.dialing ++ (state.history.ready ++ state.host.conn.rawFailPath)).Perm
    (List.range state.host.conn.pathNum)
  built : (∃ ready, phase = .dialing ready) ∨ state.dialing = []
  rawReady : state.host.conn.rawReadyPath = phase.rawReady
  pending : scheduled state.host = phase.pending state.dialing
  history : state.history = phase.history
  asking : ∀ index, (state.host.paths index).pathState = .buildSent →
    ∃ others, phase = .asked index others
  identified : ∀ first others, phase = .answered first others →
    (state.host.paths first).connID ≠ 0
  listening : ∀ index, (state.host.paths index).pathState ≠ .listen

theorem Inv.initial {start : State} (initial : Initial start)
    (positive : 0 < start.host.conn.pathNum) : Inv (.dialing []) start := by
  have waiting : start.dialing ≠ [] := by
    rw [initial.dialing, ne_eq, List.range_eq_nil]
    omega
  constructor
  · simp [initial.dialing, initial.history, initial.rawFailPath]
  · exact Or.inl ⟨[], rfl⟩
  · exact initial.rawReadyPath
  · simp [scheduled, initial.pending, Phase.pending, waiting]
  · exact initial.history
  · intro index asks
    rw [initial.paths] at asks
    cases asks
  · intro first others answered
    cases answered
  · intro index
    rw [initial.paths]
    simp

theorem Inv.ready_nodup {phase : Phase} {state : State} (inv : Inv phase state) :
    state.history.ready.Nodup := by
  have nodup := inv.outcomes.nodup_iff.mpr List.nodup_range
  exact nodup.of_append_right.of_append_left

theorem Inv.once {phase : Phase} {state : State} (inv : Inv phase state) : AtMostOnce state := by
  have nodup := inv.ready_nodup
  have seen := inv.history
  have waiting := inv.built
  cases phase with
  | dialing ready => constructor <;> simp [seen, Phase.history]
  | asked first others => constructor <;> simp_all [Phase.history]
  | answered first others => constructor <;> simp_all [Phase.history]
  | connected first others => constructor <;> simp_all [Phase.history]
  | joined first others => constructor <;> simp_all [Phase.history]

theorem Inv.completes {phase : Phase} {state : State} (inv : Inv phase state)
    (decided : state.dialing = []) (idle : scheduled state.host = []) : Completed state := by
  have seen := inv.history
  have waiting := inv.pending
  rw [idle] at waiting
  cases phase with
  | dialing ready => simp [Phase.pending, decided] at waiting
  | asked first others =>
      refine ⟨by rw [seen]; rfl, fun _ => ⟨first, others, ?_⟩, ?_⟩
      · simp [seen, Phase.history]
      · simp [seen, Phase.history]
  | answered first others => simp [Phase.pending] at waiting
  | connected first others => simp [Phase.pending] at waiting
  | joined first others =>
      refine ⟨by rw [seen]; rfl, fun _ => ⟨first, others, ?_⟩, ?_⟩
      · simp [seen, Phase.history]
      · simp [seen, Phase.history]

def withoutEvent (host : ClientHost) (event : ClientEvent) : ClientHost :=
  { host with pending := host.pending.erase event }

theorem step_event {state : State} {event : ClientEvent} (waits : event ∈ state.host.pending) :
    step state (.event event) = (runEvent (withoutEvent state.host event) event).map fun ran =>
      { state with
        host := ran.1, history := state.history.record (ran.2.map Prod.fst) event } := by
  rw [step, if_pos waits, Option.map_eq_bind]
  rfl

theorem step_event_cases {state next : State} {event : ClientEvent}
    (stepped : step state (.event event) = some next) :
    event ∈ state.host.pending ∧ ∃ host sent,
      runEvent (withoutEvent state.host event) event = some (host, sent) ∧
      next = { state with host, history := state.history.record (sent.map Prod.fst) event } := by
  by_cases waits : event ∈ state.host.pending
  · rw [step_event waits, Option.map_eq_some_iff] at stepped
    obtain ⟨⟨host, sent⟩, ran, result⟩ := stepped
    exact ⟨waits, host, sent, ran, result.symm⟩
  · rw [step, if_neg waits] at stepped
    cases stepped

theorem scheduled_erase (host : ClientHost) (event : ClientEvent) :
    scheduled (withoutEvent host event) = (scheduled host).erase event :=
  List.erase_filter.symm

theorem scheduled_erase_other (host : ClientHost) {event : ClientEvent}
    (other : setsUp event = false) : scheduled (withoutEvent host event) = scheduled host := by
  rw [scheduled_erase, List.erase_of_not_mem]
  simp [scheduled, other]

theorem runEvent_buildConnection_nil (host : ClientHost) (none : host.conn.rawReadyPath = []) :
    runEvent host .buildConnection = some (host, []) := by
  simp [runEvent, MultipathConnection.buildConnection, none]

theorem runEvent_buildConnection_cons (host : ClientHost) {first : ℕ} {others : List ℕ}
    (ready : host.conn.rawReadyPath = first :: others) :
    runEvent host .buildConnection = some ({ host with
        conn := { host.conn with rawReadyPath := others },
        paths := Function.update host.paths first (host.paths first).initConnection.1 },
      [(first, (host.paths first).initConnection.2)]) := by
  simp [runEvent, MultipathConnection.buildConnection, ready]

theorem runEvent_addInitConnectPath (host : ClientHost) {index : ℕ}
    (identified : (host.paths index).connID ≠ 0) :
    ∃ conn, runEvent host (.addInitConnectPath index) =
        some ({ host with conn, pending := host.pending ++ [.connectOtherPath] }, []) ∧
      conn.rawReadyPath = host.conn.rawReadyPath ∧ conn.rawFailPath = host.conn.rawFailPath ∧
      conn.pathNum = host.conn.pathNum := by
  simp only [runEvent, MultipathConnection.addInitConnectPath, identified, ne_eq,
    not_false_eq_true, if_true]
  exact ⟨_, rfl, rfl, rfl, rfl⟩

theorem Inv.goes {phase : Phase} {state : State} (inv : Inv phase state) {event : ClientEvent}
    (waits : event ∈ scheduled state.host) : (step state (.event event)).isSome := by
  rw [step_event (List.mem_filter.mp waits).1, Option.isSome_map]
  have found := waits
  rw [inv.pending] at found
  cases phase with
  | dialing ready =>
      have same : event = .buildConnection := by
        simp only [Phase.pending] at found
        split at found
        · exact List.mem_singleton.mp found
        · cases found
      subst same
      cases raw : state.host.conn.rawReadyPath with
      | nil => rw [runEvent_buildConnection_nil (withoutEvent _ _) raw]; rfl
      | cons first others => rw [runEvent_buildConnection_cons (withoutEvent _ _) raw]; rfl
  | asked first others => cases found
  | answered first others =>
      obtain rfl := List.mem_singleton.mp found
      have identified := inv.identified first others rfl
      obtain ⟨conn, ran, _⟩ := runEvent_addInitConnectPath
        (withoutEvent state.host (.addInitConnectPath first)) identified
      rw [ran]
      rfl
  | connected first others =>
      obtain rfl := List.mem_singleton.mp found
      rfl
  | joined first others => cases found

theorem Inv.setUpOnce {phase : Phase} {state : State} (inv : Inv phase state) :
    SetUpOnce state :=
  ⟨inv.once, fun _ => inv.goes, inv.completes⟩

structure Quiet (before after : State) : Prop where
  rawReadyPath : after.host.conn.rawReadyPath = before.host.conn.rawReadyPath
  rawFailPath : after.host.conn.rawFailPath = before.host.conn.rawFailPath
  pathNum : after.host.conn.pathNum = before.host.conn.pathNum
  dialing : after.dialing = before.dialing
  history : after.history = before.history
  scheduled : scheduled after.host = scheduled before.host
  connID : ∀ index, (after.host.paths index).connID = (before.host.paths index).connID
  asking : ∀ index, (after.host.paths index).pathState = .buildSent →
    (before.host.paths index).pathState = .buildSent
  listening : ∀ index, (after.host.paths index).pathState ≠ .listen

theorem Inv.quiet {phase : Phase} {before after : State} (inv : Inv phase before)
    (quiet : Quiet before after) : Inv phase after := by
  constructor
  · rw [quiet.dialing, quiet.history, quiet.rawFailPath, quiet.pathNum]
    exact inv.outcomes
  · rw [quiet.dialing]
    exact inv.built
  · rw [quiet.rawReadyPath]
    exact inv.rawReady
  · rw [quiet.scheduled, quiet.dialing]
    exact inv.pending
  · rw [quiet.history]
    exact inv.history
  · exact fun index asks => inv.asking index (quiet.asking index asks)
  · intro first others answered
    rw [quiet.connID]
    exact inv.identified first others answered
  · exact quiet.listening

theorem update_paths (holds : ℕ → SinglePath → Prop) {paths : ℕ → SinglePath} {index : ℕ}
    {path : SinglePath} (new : holds index path) (old : ∀ other, holds other (paths other)) :
    ∀ other, holds other (Function.update paths index path other) := by
  intro other
  by_cases same : other = index
  · subst same
    simpa using new
  · simpa [same] using old other

theorem Inv.keep_paths {phase : Phase} {state : State} (inv : Inv phase state) {index : ℕ}
    {path : SinglePath} {host : ClientHost}
    (conn : host.conn = state.host.conn)
    (paths : host.paths = Function.update state.host.paths index path)
    (pending : scheduled host = scheduled state.host)
    (connID : path.connID = (state.host.paths index).connID)
    (asking : path.pathState = .buildSent → (state.host.paths index).pathState = .buildSent)
    (listening : path.pathState ≠ .listen) : Inv phase { state with host } := by
  apply inv.quiet
  constructor
  · rw [conn]
  · rw [conn]
  · rw [conn]
  · rfl
  · rfl
  · exact pending
  · simp only [paths]
    exact update_paths (fun other path => path.connID = (state.host.paths other).connID)
      connID fun _ => rfl
  · simp only [paths]
    exact update_paths (fun other path => path.pathState = .buildSent →
      (state.host.paths other).pathState = .buildSent) asking fun _ => id
  · simp only [paths]
    exact update_paths (fun _ path => path.pathState ≠ .listen) listening inv.listening

theorem Inv.closed {phase : Phase} {state next : State} (inv : Inv phase state) {index : ℕ}
    {normally : Bool} (stepped : step state (.closed index normally) = some next) :
    Inv phase next := by
  obtain rfl := Option.some.inj stepped
  refine inv.keep_paths rfl rfl rfl ?_ ?_ ?_
  · cases normally <;> rfl
  · cases normally <;> exact fun asks => by cases asks
  · cases normally <;> exact fun listens => by cases listens

theorem scheduled_append {host : ClientHost} {paths : ℕ → SinglePath} {index : ℕ}
    (events : List PathEvent) :
    scheduled { host with
        paths, pending := host.pending ++ events.map (ClientEvent.ofPath index) } =
      scheduled host ++ (events.filter (· = .addInitConnectPath)).map
        (ClientEvent.ofPath index) := by
  have kept : setsUp ∘ ClientEvent.ofPath index =
      fun event => decide (event = .addInitConnectPath) := by
    funext event
    cases event <;> rfl
  simp [scheduled, List.filter_map, kept]

theorem Inv.receives {phase : Phase} {state next : State} (inv : Inv phase state) {index : ℕ}
    {packets : List Packet} (stepped : step state (.receives index packets) = some next) :
    ∃ later, Inv later next := by
  obtain ⟨done, processed, result⟩ := Option.bind_eq_some_iff.mp stepped
  obtain rfl := Option.some.inj result
  rcases stateProcesser_reads (inv.listening index) processed with
    ⟨asking, filled, schedules, connected, identified⟩ |
    ⟨notAnswered, schedules, connID, asking, listening⟩
  · obtain ⟨others, rfl⟩ := inv.asking index asking
    refine ⟨.answered index others, ?_⟩
    have seen := inv.history
    have onlyAsking : ∀ other, (state.host.paths other).pathState = .buildSent → other = index := by
      intro other asks
      obtain ⟨_, same⟩ := inv.asking other asks
      cases same
      rfl
    rw [if_pos ⟨asking, filled⟩]
    constructor
    · exact inv.outcomes
    · exact Or.inr (inv.built.resolve_left (by simp))
    · exact inv.rawReady
    · rw [scheduled_append, schedules, inv.pending]
      rfl
    · simp [seen, Phase.history]
    · intro other asks
      by_cases same : other = index
      · subst same
        simp [connected] at asks
      · simp only [Function.update_of_ne same] at asks
        exact absurd (onlyAsking other asks) same
    · intro first rest answered
      cases answered
      simpa using identified
    · exact update_paths (fun _ path => path.pathState ≠ .listen) (by simp [connected])
        inv.listening
  · refine ⟨phase, ?_⟩
    rw [if_neg notAnswered, List.append_nil]
    refine inv.keep_paths rfl rfl ?_ connID asking listening
    rw [scheduled_append]
    have none : done.scheduled.filter (· = .addInitConnectPath) = [] := by
      rw [List.filter_eq_nil_iff]
      intro event member
      have distinct : event ≠ .addInitConnectPath := fun same => schedules (same ▸ member)
      simpa using distinct
    rw [none, List.map_nil, List.append_nil]

theorem Inv.dialing_of_mem {phase : Phase} {state : State} (inv : Inv phase state) {index : ℕ}
    (waits : index ∈ state.dialing) : ∃ ready, phase = .dialing ready := by
  rcases inv.built with dialing | decided
  · exact dialing
  · rw [decided] at waits
    cases waits

theorem scheduled_addRawPath (host : ClientHost) (index : ℕ) (path : SinglePath) (ready : Bool) :
    scheduled (addRawPath host index path ready) = scheduled host ++
      if (addRawPath host index path ready).conn.rawReadyPath.length +
          (addRawPath host index path ready).conn.rawFailPath.length = host.conn.pathNum
        then [.buildConnection] else [] := by
  cases ready with
  | true =>
      simp only [scheduled, addRawPath, MultipathConnection.addRawPath, if_true,
        decide_eq_true_eq, List.filter_append]
      split <;> rfl
  | false =>
      simp only [scheduled, addRawPath, MultipathConnection.addRawPath, Bool.false_eq_true,
        if_false, decide_eq_true_eq, List.filter_append]
      split <;> rfl

theorem Inv.report {ready now : List ℕ} {state : State} (inv : Inv (.dialing ready) state)
    {index : ℕ} (waits : index ∈ state.dialing) {path : SinglePath} {succeeded : Bool}
    (rawReady : (addRawPath state.host index path succeeded).conn.rawReadyPath = now)
    (more : (now ++ (addRawPath state.host index path succeeded).conn.rawFailPath).Perm
      (index :: (state.history.ready ++ state.host.conn.rawFailPath)))
    (asking : path.pathState ≠ .buildSent) (listening : path.pathState ≠ .listen) :
    Inv (.dialing now) { state with
      host := addRawPath state.host index path succeeded
      dialing := state.dialing.erase index
      history := { state.history with ready := now } } := by
  have seen := inv.history
  obtain ⟨rawReadyPath, rawFailPath, conn⟩ := addRawPath_conn state.host index path succeeded
  have waiting : state.dialing ≠ [] := List.ne_nil_of_mem waits
  have outcomes : (state.dialing.erase index ++
      (now ++ (addRawPath state.host index path succeeded).conn.rawFailPath)).Perm
        (List.range state.host.conn.pathNum) := by
    have dialed := (List.perm_cons_erase waits).symm
    have moved := more.append_left (state.dialing.erase index)
    exact (moved.trans (List.perm_middle.trans (dialed.append_right _))).trans inv.outcomes
  have total := outcomes.length_eq
  simp only [List.length_append, List.length_range] at total
  constructor
  · rw [conn] at outcomes ⊢
    exact outcomes
  · exact Or.inl ⟨now, rfl⟩
  · exact rawReady
  · have idle := inv.pending
    rw [Phase.pending, if_neg waiting] at idle
    rw [scheduled_addRawPath, idle, List.nil_append, rawReady]
    have last : now.length + (addRawPath state.host index path succeeded).conn.rawFailPath.length =
        state.host.conn.pathNum ↔ (state.dialing.erase index).length = 0 := by omega
    exact if_congr (last.trans List.length_eq_zero_iff) rfl rfl
  · simp [seen, Phase.history]
  · have quiet : ∀ other, (state.host.paths other).pathState ≠ .buildSent := by
      intro other asks
      obtain ⟨_, same⟩ := inv.asking other asks
      cases same
    have notAsking : ∀ other,
        (Function.update state.host.paths index path other).pathState ≠ .buildSent :=
      update_paths (fun _ path => path.pathState ≠ .buildSent) asking quiet
    exact fun other asks => absurd asks (notAsking other)
  · intro first others answered
    cases answered
  · exact update_paths (fun _ path => path.pathState ≠ .listen) listening inv.listening

theorem Inv.connected {phase : Phase} {state next : State} (inv : Inv phase state) {index : ℕ}
    (stepped : step state (.connected index) = some next) : ∃ later, Inv later next := by
  by_cases waits : index ∈ state.dialing
  · rw [step, if_pos waits] at stepped
    obtain rfl := Option.some.inj stepped
    obtain ⟨ready, rfl⟩ := inv.dialing_of_mem waits
    have seen := inv.history
    have raw := inv.rawReady
    refine ⟨.dialing (state.history.ready ++ [index]), inv.report waits ?_ ?_ ?_ ?_⟩
    · simp [addRawPath, MultipathConnection.addRawPath, raw, seen, Phase.history, Phase.rawReady]
    · simp only [addRawPath, MultipathConnection.addRawPath, if_true, List.append_assoc]
      exact List.perm_middle
    · simp [SinglePath.pathConnectSucceeded]
    · simp [SinglePath.pathConnectSucceeded]
  · rw [step, if_neg waits] at stepped
    cases stepped

theorem Inv.failed {phase : Phase} {state next : State} (inv : Inv phase state) {index : ℕ}
    (stepped : step state (.failed index) = some next) : ∃ later, Inv later next := by
  by_cases waits : index ∈ state.dialing
  · rw [step, if_pos waits] at stepped
    obtain rfl := Option.some.inj stepped
    obtain ⟨ready, rfl⟩ := inv.dialing_of_mem waits
    have seen := inv.history
    have raw := inv.rawReady
    refine ⟨.dialing state.history.ready, inv.report waits ?_ ?_ ?_ ?_⟩
    · simp [addRawPath, MultipathConnection.addRawPath, raw, seen, Phase.history, Phase.rawReady]
    · simp only [addRawPath, MultipathConnection.addRawPath, Bool.false_eq_true, if_false]
      rw [← List.append_assoc]
      exact List.perm_append_singleton index _
    · simp [SinglePath.pathConnectFailed]
    · simp [SinglePath.pathConnectFailed]
  · rw [step, if_neg waits] at stepped
    cases stepped

theorem Inv.mem_pending {phase : Phase} {state : State} (inv : Inv phase state)
    {event : ClientEvent} (waits : event ∈ state.host.pending) (part : setsUp event = true) :
    event ∈ phase.pending state.dialing ∧
      scheduled (withoutEvent state.host event) = (phase.pending state.dialing).erase event := by
  rw [scheduled_erase, inv.pending]
  refine ⟨?_, rfl⟩
  rw [← inv.pending]
  exact List.mem_filter.mpr ⟨waits, part⟩

theorem Inv.buildConnection {phase : Phase} {state next : State} (inv : Inv phase state)
    (someReady : state.history.ready ≠ [])
    (stepped : step state (.event .buildConnection) = some next) : ∃ later, Inv later next := by
  obtain ⟨waits, host, sent, ran, rfl⟩ := step_event_cases stepped
  obtain ⟨found, left⟩ := inv.mem_pending waits rfl
  cases phase with
  | dialing ready =>
      have decided : state.dialing = [] := by
        by_contra waiting
        simp [Phase.pending, waiting] at found
      have seen := inv.history
      have raw := inv.rawReady
      cases ready with
      | nil => simp [seen, Phase.history] at someReady
      | cons first others =>
          rw [runEvent_buildConnection_cons (withoutEvent _ _) raw, Option.some.injEq,
            Prod.mk.injEq] at ran
          obtain ⟨rfl, rfl⟩ := ran
          refine ⟨.asked first others, ?_⟩
          constructor
          · exact inv.outcomes
          · exact Or.inr decided
          · rfl
          · change scheduled (withoutEvent state.host .buildConnection) = _
            rw [left, Phase.pending, if_pos decided]
            rfl
          · simp [seen, Phase.history, History.record]
          · intro index asks
            by_cases same : index = first
            · exact ⟨others, by rw [same]⟩
            · simp only [Function.update_of_ne same] at asks
              obtain ⟨_, wrong⟩ := inv.asking index asks
              cases wrong
          · intro index rest answered
            cases answered
          · exact update_paths (fun _ path => path.pathState ≠ .listen)
              (by simp [SinglePath.initConnection]) inv.listening
  | asked first others => cases found
  | answered first others => simp [Phase.pending] at found
  | connected first others => simp [Phase.pending] at found
  | joined first others => cases found

theorem Inv.addInitConnectPath {phase : Phase} {state next : State} (inv : Inv phase state)
    {index : ℕ} (stepped : step state (.event (.addInitConnectPath index)) = some next) :
    ∃ later, Inv later next := by
  obtain ⟨waits, host, sent, ran, rfl⟩ := step_event_cases stepped
  obtain ⟨found, left⟩ := inv.mem_pending waits rfl
  cases phase with
  | dialing ready =>
      simp only [Phase.pending] at found
      split at found <;> simp at found
  | asked first others => cases found
  | answered first others =>
      obtain rfl : index = first := by simpa [Phase.pending] using found
      have seen := inv.history
      obtain ⟨conn, happens, rawReady, rawFail, pathNum⟩ := runEvent_addInitConnectPath
        (withoutEvent state.host (.addInitConnectPath index)) (inv.identified index others rfl)
      rw [happens, Option.some.injEq, Prod.mk.injEq] at ran
      obtain ⟨rfl, rfl⟩ := ran
      refine ⟨.connected index others, ?_⟩
      constructor
      · rw [rawFail, pathNum]
        exact inv.outcomes
      · exact Or.inr (inv.built.resolve_left (by simp))
      · rw [rawReady]
        exact inv.rawReady
      · have idle : ((withoutEvent state.host (.addInitConnectPath index)).pending).filter setsUp =
            [] := by
          rw [← scheduled, left]
          simp [Phase.pending]
        simp [scheduled, idle, setsUp, Phase.pending]
      · simp [seen, Phase.history, History.record]
      · intro other asks
        obtain ⟨_, wrong⟩ := inv.asking other asks
        cases wrong
      · intro first rest answered
        cases answered
      · exact inv.listening
  | connected first others => simp [Phase.pending] at found
  | joined first others => cases found

theorem Inv.connectOtherPath {phase : Phase} {state next : State} (inv : Inv phase state)
    (stepped : step state (.event .connectOtherPath) = some next) : ∃ later, Inv later next := by
  obtain ⟨waits, host, sent, ran, rfl⟩ := step_event_cases stepped
  obtain ⟨found, left⟩ := inv.mem_pending waits rfl
  cases phase with
  | dialing ready =>
      simp only [Phase.pending] at found
      split at found <;> simp at found
  | asked first others => cases found
  | answered first others => simp [Phase.pending] at found
  | connected first others =>
      have seen := inv.history
      have raw : (withoutEvent state.host .connectOtherPath).conn.rawReadyPath = others :=
        inv.rawReady
      have nodup : others.Nodup := by
        have ready := inv.ready_nodup
        rw [seen] at ready
        exact (List.nodup_cons.mp ready).2
      rw [runEvent, MultipathConnection.connectOtherPath_eq _ _ (by rw [raw]; exact nodup), raw,
        Option.some.injEq, Prod.mk.injEq] at ran
      obtain ⟨rfl, rfl⟩ := ran
      refine ⟨.joined first others, ?_⟩
      constructor
      · exact inv.outcomes
      · exact Or.inr (inv.built.resolve_left (by simp))
      · rfl
      · change scheduled (withoutEvent state.host .connectOtherPath) = _
        rw [left]
        simp [Phase.pending]
      · simp [seen, Phase.history, History.record, Function.comp_def]
      · intro index asks
        by_cases joins : index ∈ others
        · simp [joins, MultipathConnection.joined, SinglePath.joinConnection] at asks
        · simp only [joins, if_false] at asks
          obtain ⟨_, wrong⟩ := inv.asking index asks
          cases wrong
      · intro index rest answered
        cases answered
      · intro index
        by_cases joins : index ∈ others
        · simp [joins, MultipathConnection.joined, SinglePath.joinConnection]
        · simpa only [joins, if_false] using! inv.listening index
  | joined first others => cases found

theorem Inv.pathJoinResult {phase : Phase} {state next : State} (inv : Inv phase state)
    {index : ℕ} {success : Bool}
    (stepped : step state (.event (.pathJoinResult index success)) = some next) :
    Inv phase next := by
  obtain ⟨_, host, sent, ran, rfl⟩ := step_event_cases stepped
  obtain ⟨conn, reported, result⟩ := Option.bind_eq_some_iff.mp ran
  simp only [Option.pure_def, Option.some.injEq, Prod.mk.injEq] at result
  obtain ⟨rfl, rfl⟩ := result
  have kept : conn.rawReadyPath = state.host.conn.rawReadyPath ∧
      conn.rawFailPath = state.host.conn.rawFailPath ∧
      conn.pathNum = state.host.conn.pathNum := by
    cases success with
    | true =>
        simp only [MultipathConnection.pathJoinResult, if_true, Option.ite_none_right_eq_some,
          Option.some.injEq] at reported
        rw [← reported.2]
        exact ⟨rfl, rfl, rfl⟩
    | false =>
        obtain rfl := Option.some.inj reported
        exact ⟨rfl, rfl, rfl⟩
  obtain ⟨rawReady, rawFail, pathNum⟩ := kept
  exact inv.quiet ⟨rawReady, rawFail, pathNum, rfl, rfl, scheduled_erase_other _ rfl,
    fun _ => rfl, fun _ => id, inv.listening⟩

theorem Inv.pathRecvedData {phase : Phase} {state next : State} (inv : Inv phase state)
    {index : ℕ} (stepped : step state (.event (.pathRecvedData index)) = some next) :
    Inv phase next := by
  obtain ⟨_, host, sent, ran, rfl⟩ := step_event_cases stepped
  obtain ⟨⟨conn, path, notified⟩, received, result⟩ := Option.bind_eq_some_iff.mp ran
  simp only [Option.pure_def, Option.some.injEq, Prod.mk.injEq] at result
  obtain ⟨rfl, rfl⟩ := result
  obtain ⟨⟨loopConn, loopPath⟩, looped, same⟩ := Option.bind_eq_some_iff.mp received
  simp only [Option.pure_def, Option.some.injEq, Prod.mk.injEq] at same
  obtain ⟨rfl, rfl, _⟩ := same
  obtain ⟨_, _, _, unread, rfl, rfl⟩ := MultipathConnection.pathRecvedDataLoop_writes looped
  apply inv.quiet
  constructor
  · rfl
  · rfl
  · rfl
  · rfl
  · rfl
  · exact scheduled_erase_other _ rfl
  · exact update_paths (fun other path => path.connID = (state.host.paths other).connID)
      rfl fun _ => rfl
  · exact update_paths (fun other path => path.pathState = .buildSent →
      (state.host.paths other).pathState = .buildSent) id fun _ => id
  · exact update_paths (fun _ path => path.pathState ≠ .listen) (inv.listening index)
      inv.listening

theorem Inv.step {phase : Phase} {state next : State} {action : Action} (inv : Inv phase state)
    (guarded : SomeReady state action) (stepped : step state action = some next) :
    ∃ later, Inv later next := by
  cases action with
  | connected index => exact inv.connected stepped
  | failed index => exact inv.failed stepped
  | closed index normally => exact ⟨phase, inv.closed stepped⟩
  | receives index packets => exact inv.receives stepped
  | event event =>
      cases event with
      | buildConnection => exact inv.buildConnection guarded stepped
      | addInitConnectPath index => exact inv.addInitConnectPath stepped
      | connectOtherPath => exact inv.connectOtherPath stepped
      | pathJoinResult index success => exact ⟨phase, inv.pathJoinResult stepped⟩
      | pathRecvedData index => exact ⟨phase, inv.pathRecvedData stepped⟩

/-- When no path has connected, `BuildConnection` runs and nothing more does: the set-up is over,
and the failure callback has not been called. -/
theorem Inv.noneReady {phase : Phase} {state next : State} (inv : Inv phase state)
    (none : state.history.ready = [])
    (stepped : SetUp.step state (.event .buildConnection) = some next) : ¬ SetUpOnce next := by
  obtain ⟨waits, host, sent, ran, rfl⟩ := step_event_cases stepped
  obtain ⟨found, left⟩ := inv.mem_pending waits rfl
  have seen := inv.history
  cases phase with
  | dialing ready =>
      have decided : state.dialing = [] := by
        by_contra waiting
        simp [Phase.pending, waiting] at found
      have raw := inv.rawReady
      obtain rfl : ready = [] := by simpa [seen, Phase.history] using none
      rw [runEvent_buildConnection_nil (withoutEvent _ _) raw, Option.some.injEq,
        Prod.mk.injEq] at ran
      obtain ⟨rfl, rfl⟩ := ran
      intro onceOnly
      have idle : scheduled (withoutEvent state.host .buildConnection) = [] := by
        rw [left, Phase.pending, if_pos decided]
        rfl
      have silent := (onceOnly.completes decided idle).noneReady (by simpa [History.record] using none)
      have notified := silent.2.2
      simp [seen, Phase.history, History.record] at notified
  | asked first others => simp [seen, Phase.history] at none
  | answered first others => simp [seen, Phase.history] at none
  | connected first others => simp [seen, Phase.history] at none
  | joined first others => simp [seen, Phase.history] at none

/-- For any number of paths, any order of what happens to them and any order of what they schedule,
the set-up completes exactly once if some path connects. -/
theorem setUpOnce_iff {start : State} {actions : List Action} (initial : Initial start)
    (positive : 0 < start.host.conn.pathNum) (ran : (run step start actions).isSome) :
    Throughout step SetUpOnce start actions ↔ Guarded step SomeReady start actions := by
  have started : ∃ phase, Inv phase start := ⟨_, Inv.initial initial positive⟩
  refine @throughout_iff_guarded_of _ _ _ _ (fun state => ∃ phase, Inv phase state) _ ?_ ?_ ?_
    _ _ started ran
  · rintro state ⟨phase, inv⟩
    exact inv.setUpOnce
  · rintro state action next ⟨phase, inv⟩ guarded stepped
    exact inv.step guarded stepped
  · rintro state action next ⟨phase, inv⟩ stepped onceOnly
    cases action with
    | event event =>
        cases event with
        | buildConnection => exact fun none => inv.noneReady none stepped onceOnly
        | addInitConnectPath index => trivial
        | connectOtherPath => trivial
        | pathJoinResult index success => trivial
        | pathRecvedData index => trivial
    | connected index => trivial
    | failed index => trivial
    | closed index normally => trivial
    | receives index packets => trivial

def threePaths : State where
  host := { conn := { localKey := 7, pathNum := 3 }, paths := fun _ => {}, pending := [] }
  dialing := [0, 1, 2]

def threePathsRun : List Action :=
  [.connected 2, .failed 0, .connected 1, .event .buildConnection,
    .receives 2 [({ senderKey := 5, connId := 9 } : MultipathHeader).serialize],
    .event (.addInitConnectPath 2), .event .connectOtherPath]

theorem initial_threePaths : Initial threePaths :=
  ⟨by decide, rfl, rfl, rfl, fun _ => rfl, rfl⟩

theorem setUpOnce_threePaths :
    Throughout step SetUpOnce threePaths threePathsRun ∧
      (run step threePaths threePathsRun).map State.history = some {
        built := 1, ready := [2, 1], inits := [2], answered := [2], joins := [1],
        notices := [.succeeded] } :=
  ⟨(setUpOnce_iff initial_threePaths (by decide) (by decide)).mpr (by decide), by decide⟩

def onePath : State where
  host := { conn := { localKey := 7, pathNum := 1 }, paths := fun _ => {}, pending := [] }
  dialing := [0]

/-- The only path fails: `BuildConnection` logs an error and tells nobody. -/
theorem allFailed_unnoticed :
    Initial onePath ∧ 0 < onePath.host.conn.pathNum ∧
      (run step onePath [.failed 0, .event .buildConnection]).map
          (fun last => (last.history, last.dialing, last.host.pending)) =
        some ({ built := 1 }, [], []) ∧
      ¬ Throughout step SetUpOnce onePath [.failed 0, .event .buildConnection] := by
  refine ⟨⟨by decide, rfl, rfl, rfl, fun _ => rfl, rfl⟩, by decide, by decide, ?_⟩
  intro holds
  have onceOnly := holds [.failed 0, .event .buildConnection] [] _ rfl rfl
  have notified := ((onceOnly.completes rfl rfl).noneReady rfl).2.2
  cases notified

end FISim.SetUp
