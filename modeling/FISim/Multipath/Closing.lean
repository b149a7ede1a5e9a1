import FISim.Lib.Transition
import FISim.Multipath.Connection

/-!
`MultipathConnection::Close`, from the call on: it schedules itself again until
the connection is closed, while the sockets of the paths report.  A deleted path
is one that the memory has nothing for.
-/

namespace FISim

/-- `PathClose`; the flag says that the socket is closed. -/
def SinglePath.pathClose (path : SinglePath) : Int32 × Bool :=
  if path.hasSocket = false then (-1, false) else (0, true)

-- `PathCloseSucceeded` and `PathCloseFailed`, whose states have nothing to process.
def SinglePath.pathCloseSucceeded (path : SinglePath) : SinglePath :=
  { path with pathState := .closed }

def SinglePath.pathCloseFailed (path : SinglePath) : SinglePath :=
  { path with pathState := .error }

namespace MultipathConnection

variable {Path : Type} [DecidableEq Path]

structure Closing (Path : Type) where
  memory : Path → Option SinglePath
  -- the paths whose sockets are closed
  asked : List Path := []

-- One turn of the loop of `Close`.  The slot keeps its pointer when the path is deleted, and
-- `none` is a turn that goes on with a deleted path.
def closePath (closing : Closing Path) (pointer : Path) : Option (Closing Path) := do
  let path ← closing.memory pointer
  let memory :=
    if path.pathState = .closed then Function.update closing.memory pointer none
    else closing.memory
  let path ← memory pointer
  return { memory, asked := closing.asked ++ if path.pathClose.2 then [pointer] else [] }

structure Closed (Path : Type) where
  conn : MultipathConnection Path
  closing : Closing Path
  -- the close callback is called, else `Close` is scheduled again
  notified : Bool

def closePaths (conn : MultipathConnection Path) (memory : Path → Option SinglePath) :
    Option (MultipathConnection Path × Closing Path) :=
  if conn.rxBuffer = [] then
    (conn.paths.foldlM closePath { memory }).map fun closing =>
      ({ conn with connState := .closing }, closing)
  else some (conn, { memory })

-- `closedNum` counts the null pointers in `m_paths`, and nothing ever puts one there.
def close (conn : MultipathConnection Path) (memory : Path → Option SinglePath) :
    Option (Closed Path) := do
  let (conn, closing) ← conn.closePaths memory
  let closedNum := 0
  if closedNum = conn.paths.length then
    return { conn := { conn with connState := .closed }, closing, notified := true }
  else return { conn, closing, notified := false }

theorem closePath_cases {closing after : Closing Path} {pointer : Path}
    (turned : closePath closing pointer = some after) :
    ∃ path, closing.memory pointer = some path ∧ path.pathState ≠ .closed ∧
      after = { closing with
        asked := closing.asked ++ if path.pathClose.2 then [pointer] else [] } := by
  obtain ⟨path, found, rest⟩ := Option.bind_eq_some_iff.mp turned
  by_cases isClosed : path.pathState = .closed
  · simp [isClosed] at rest
  · simp only [if_neg isClosed, found] at rest
    exact ⟨path, found, isClosed, (Option.some.inj rest).symm⟩

/-- The loop goes on to its end only over paths that are there and not closed, and deletes none
of them then. -/
theorem foldlM_closePath {pointers : List Path} {closing after : Closing Path}
    (looped : pointers.foldlM closePath closing = some after) : after.memory = closing.memory := by
  induction pointers generalizing closing with
  | nil =>
      simp only [List.foldlM_nil, Option.pure_def, Option.some.injEq] at looped
      rw [looped]
  | cons pointer pointers ih =>
      rw [List.foldlM_cons] at looped
      obtain ⟨next, turned, looped⟩ := Option.bind_eq_some_iff.mp looped
      obtain ⟨path, -, -, rfl⟩ := closePath_cases turned
      have kept := ih looped
      exact kept

theorem closePaths_cases {conn after : MultipathConnection Path}
    {memory : Path → Option SinglePath} {closing : Closing Path}
    (looped : conn.closePaths memory = some (after, closing)) :
    closing.memory = memory ∧
      after = { conn with
        connState := if conn.rxBuffer = [] then .closing else conn.connState } := by
  unfold closePaths at looped
  split at looped
  · rename_i empty
    obtain ⟨done, folded, result⟩ := Option.map_eq_some_iff.mp looped
    simp only [Prod.mk.injEq] at result
    obtain ⟨rfl, rfl⟩ := result
    exact ⟨foldlM_closePath folded, by rw [if_pos empty]⟩
  · rename_i filled
    simp only [Option.some.injEq, Prod.mk.injEq] at looped
    obtain ⟨rfl, rfl⟩ := looped
    exact ⟨rfl, by rw [if_neg filled]⟩

theorem close_cases {conn : MultipathConnection Path} {memory : Path → Option SinglePath}
    {done : Closed Path} (happened : conn.close memory = some done) :
    done.closing.memory = memory ∧
      (conn.paths = [] ∧ done.notified = true ∧ done.conn = { conn with connState := .closed } ∨
        conn.paths ≠ [] ∧ done.notified = false ∧
          done.conn = { conn with
            connState := if conn.rxBuffer = [] then .closing else conn.connState }) := by
  obtain ⟨⟨after, closing⟩, looped, rest⟩ := Option.bind_eq_some_iff.mp happened
  obtain ⟨same, rfl⟩ := closePaths_cases looped
  dsimp only at rest
  split at rest
  · rename_i none_
    obtain rfl := Option.some.inj rest
    exact ⟨same, Or.inl ⟨List.length_eq_zero_iff.mp none_.symm, rfl, rfl⟩⟩
  · rename_i some_
    obtain rfl := Option.some.inj rest
    refine ⟨same, Or.inr ⟨fun empty => some_ ?_, rfl, rfl⟩⟩
    rw [empty]
    rfl

theorem close_bare {conn : MultipathConnection Path} (bare : conn.paths = [])
    (memory : Path → Option SinglePath) :
    conn.close memory = some {
      conn := { conn with connState := .closed }, closing := { memory }, notified := true } := by
  unfold close closePaths
  rw [bare]
  split <;> simp [bare]

end MultipathConnection

namespace Closing

open Transition

variable {Path : Type} [DecidableEq Path]

structure State (Path : Type) where
  conn : MultipathConnection Path
  memory : Path → Option SinglePath
  -- the scheduled `Close` events
  scheduled : ℕ := 0
  -- history: the calls of the close callback, and whether a deleted path has been used
  notified : ℕ := 0
  faulted : Bool := false

inductive Action (Path : Type)
  | close
  | pathCloseSucceeded (path : Path)
  | pathCloseFailed (path : Path)
  | arrive (path : Path) (pack : Packet)
  | recv

def Reported (path : SinglePath) : Prop := path.pathState = .closed ∨ path.pathState = .error

instance (path : SinglePath) : Decidable (Reported path) :=
  inferInstanceAs (Decidable (_ ∨ _))

-- A socket reports once, to a path that is there.
def report (before : State Path) (pointer : Path) (reported : SinglePath → SinglePath) :
    Option (State Path) := do
  let path ← before.memory pointer
  if path.hasSocket = false ∨ Reported path then none
  else return { before with memory := Function.update before.memory pointer (reported path) }

-- A run does not go on after a deleted path has been used.
def step (before : State Path) (action : Action Path) : Option (State Path) :=
  if before.faulted then none
  else match action with
  | .close =>
      if before.scheduled = 0 then none
      else match before.conn.close before.memory with
      | none => some { before with faulted := true }
      | some done =>
          if done.notified then
            some { before with
              conn := done.conn, memory := done.closing.memory,
              scheduled := before.scheduled - 1, notified := before.notified + 1 }
          else some { before with conn := done.conn, memory := done.closing.memory }
  | .pathCloseSucceeded pointer => report before pointer SinglePath.pathCloseSucceeded
  | .pathCloseFailed pointer => report before pointer SinglePath.pathCloseFailed
  | .arrive pointer pack =>
      if pointer ∈ before.conn.paths then some { before with conn := before.conn.pushReceived pack }
      else none
  | .recv => some { before with conn := before.conn.recv.2 }

/-- A connection whose `Close` is called: every path is there and has a socket. -/
structure Called (start : State Path) : Prop where
  connState : start.conn.connState ≠ .closed
  paths : ∀ pointer ∈ start.conn.paths,
    ∃ path, start.memory pointer = some path ∧ path.hasSocket = true
  scheduled : start.scheduled = 1
  notified : start.notified = 0
  faulted : start.faulted = false

def AllReported (state : State Path) : Prop :=
  ∀ pointer ∈ state.conn.paths, ∀ path, state.memory pointer = some path → Reported path

/-- What is asked of every state that a run comes to. -/
structure Safe (state : State Path) : Prop where
  untouched : state.faulted = false
  closed : state.conn.connState = .closed → AllReported state ∧ state.conn.rxBuffer = []
  once : state.notified = if state.conn.connState = .closed then 1 else 0

/-- What is asked of a call of `Close`: its runs are safe, and once all paths have reported and
everything has been read, some more `Close` events close the connection. -/
structure Closes (start : State Path) : Prop where
  safe : ∀ actions state, run step start actions = some state → Safe state
  ends : ∀ actions state, run step start actions = some state → AllReported state →
    state.conn.rxBuffer = [] →
      ∃ events last, run step state (List.replicate events .close) = some last ∧
        last.conn.connState = .closed

theorem step_close {before after : State Path} (stepped : step before .close = some after) :
    before.faulted = false ∧ before.scheduled ≠ 0 ∧
      (before.conn.close before.memory = none ∧ after = { before with faulted := true } ∨
        before.conn.paths = [] ∧ after = { before with
          conn := { before.conn with connState := .closed },
          scheduled := before.scheduled - 1, notified := before.notified + 1 } ∨
        before.conn.paths ≠ [] ∧ after = { before with
          conn := { before.conn with
            connState := if before.conn.rxBuffer = [] then .closing else before.conn.connState } }) := by
  unfold step at stepped
  split at stepped
  · cases stepped
  · rename_i sound
    dsimp only at stepped
    split at stepped
    · cases stepped
    · rename_i pending
      refine ⟨by simpa using sound, pending, ?_⟩
      split at stepped
      · rename_i fault
        exact Or.inl ⟨fault, (Option.some.inj stepped).symm⟩
      · rename_i done happened
        obtain ⟨same, ⟨empty, notified, conn⟩ | ⟨filled, notified, conn⟩⟩ :=
          MultipathConnection.close_cases happened
        · rw [notified, if_pos rfl, same, conn] at stepped
          exact Or.inr (Or.inl ⟨empty, (Option.some.inj stepped).symm⟩)
        · rw [notified, if_neg Bool.false_ne_true, same, conn] at stepped
          exact Or.inr (Or.inr ⟨filled, (Option.some.inj stepped).symm⟩)

theorem report_cases {before after : State Path} {pointer : Path}
    {reported : SinglePath → SinglePath} (happened : report before pointer reported = some after) :
    ∃ path, before.memory pointer = some path ∧ path.hasSocket = true ∧ ¬ Reported path ∧
      after = { before with
        memory := Function.update before.memory pointer (some (reported path)) } := by
  obtain ⟨path, found, rest⟩ := Option.bind_eq_some_iff.mp happened
  by_cases refused : path.hasSocket = false ∨ Reported path
  · simp [refused] at rest
  · rw [if_neg refused] at rest
    rw [not_or, Bool.not_eq_false] at refused
    exact ⟨path, found, refused.1, refused.2, (Option.some.inj rest).symm⟩

theorem step_other {before after : State Path} {action : Action Path}
    (stepped : step before action = some after) (other : action ≠ .close) :
    after.conn.paths = before.conn.paths ∧ after.conn.connState = before.conn.connState ∧
      after.scheduled = before.scheduled ∧ after.notified = before.notified ∧
      after.faulted = before.faulted ∧
      (before.conn.paths = [] → before.conn.rxBuffer = [] → after.conn.rxBuffer = []) := by
  unfold step at stepped
  split at stepped
  · cases stepped
  · cases action with
    | close => exact absurd rfl other
    | pathCloseSucceeded pointer =>
        obtain ⟨path, -, -, -, rfl⟩ := report_cases stepped
        exact ⟨rfl, rfl, rfl, rfl, rfl, fun _ empty => empty⟩
    | pathCloseFailed pointer =>
        obtain ⟨path, -, -, -, rfl⟩ := report_cases stepped
        exact ⟨rfl, rfl, rfl, rfl, rfl, fun _ empty => empty⟩
    | arrive pointer pack =>
        dsimp only at stepped
        split at stepped
        · rename_i member
          obtain rfl := Option.some.inj stepped
          refine ⟨rfl, rfl, rfl, rfl, rfl, fun none_ => ?_⟩
          simp [none_] at member
        · cases stepped
    | recv =>
        obtain rfl := Option.some.inj stepped
        unfold MultipathConnection.recv
        split
        · exact ⟨rfl, rfl, rfl, rfl, rfl, fun _ empty => empty⟩
        · rename_i filled
          exact ⟨rfl, rfl, rfl, rfl, rfl, fun _ empty => by simp [empty] at filled⟩

theorem step_open {before after : State Path} {action : Action Path}
    (filled : before.conn.paths ≠ []) (opened : before.conn.connState ≠ .closed)
    (stepped : step before action = some after) :
    after.conn.paths ≠ [] ∧ after.conn.connState ≠ .closed := by
  by_cases isClose : action = .close
  · subst isClose
    obtain ⟨-, -, ⟨-, rfl⟩ | ⟨empty, -⟩ | ⟨-, rfl⟩⟩ := step_close stepped
    · exact ⟨filled, opened⟩
    · exact absurd empty filled
    · refine ⟨filled, ?_⟩
      dsimp only
      split
      · decide
      · exact opened
  · obtain ⟨paths, connState, -⟩ := step_other stepped isClose
    rw [paths, connState]
    exact ⟨filled, opened⟩

theorem run_open {start last : State Path} {actions : List (Action Path)}
    (filled : start.conn.paths ≠ []) (opened : start.conn.connState ≠ .closed)
    (ran : run step start actions = some last) :
    last.conn.paths ≠ [] ∧ last.conn.connState ≠ .closed := by
  have keeps : ∀ (state : State Path) (action : Action Path) (next : State Path),
      state.conn.paths ≠ [] ∧ state.conn.connState ≠ .closed → step state action = some next →
        next.conn.paths ≠ [] ∧ next.conn.connState ≠ .closed :=
    fun state action next holds stepped => step_open holds.1 holds.2 stepped
  exact Reachable.invariant keeps ⟨filled, opened⟩ ⟨actions, ran⟩

theorem exists_reports {state : State Path} (sound : state.faulted = false) (pointers : List Path)
    (present : ∀ pointer ∈ pointers,
      ∃ path, state.memory pointer = some path ∧ path.hasSocket = true) :
    ∃ actions memory, run step state actions = some { state with memory } ∧
      (∀ pointer ∉ pointers, memory pointer = state.memory pointer) ∧
      ∀ pointer ∈ pointers, ∃ path, memory pointer = some path ∧ Reported path := by
  induction pointers with
  | nil => exact ⟨[], state.memory, rfl, fun _ _ => rfl, by simp⟩
  | cons pointer rest ih =>
      obtain ⟨actions, memory, ran, others, reported⟩ :=
        ih fun other member => present other (List.mem_cons_of_mem _ member)
      obtain ⟨path, found, socket⟩ := present pointer List.mem_cons_self
      have elsewhere : ∀ other ∉ pointer :: rest, memory other = state.memory other :=
        fun other absent => others other fun member => absent (List.mem_cons_of_mem _ member)
      by_cases done : ∃ path, memory pointer = some path ∧ Reported path
      · refine ⟨actions, memory, ran, elsewhere, ?_⟩
        intro other member
        rcases List.mem_cons.mp member with rfl | later
        · exact done
        · exact reported other later
      · have still : memory pointer = some path := by
          rw [others pointer fun member => done (reported pointer member)]
          exact found
        have open_ : ¬ Reported path := fun isReported => done ⟨path, still, isReported⟩
        have stepped : step { state with memory } (.pathCloseSucceeded pointer) = some
            { state with memory := Function.update memory pointer (some path.pathCloseSucceeded) } := by
          simp [step, sound, report, still, socket, open_]
        refine ⟨actions ++ [.pathCloseSucceeded pointer], _,
          run_append_some ran (by rw [run_cons, stepped]; rfl), ?_, ?_⟩
        · intro other absent
          have different : other ≠ pointer := fun same => absent (same ▸ List.mem_cons_self)
          rw [Function.update_of_ne different]
          exact elsewhere other absent
        · intro other member
          by_cases same : other = pointer
          · subst same
            exact ⟨_, Function.update_self .., Or.inl rfl⟩
          · rw [Function.update_of_ne same]
            exact reported other ((List.mem_cons.mp member).resolve_left same)

theorem exists_reads {state : State Path} (sound : state.faulted = false) :
    ∃ actions conn, run step state actions = some { state with conn } ∧ conn.rxBuffer = [] ∧
      conn.paths = state.conn.paths := by
  induction buffer : state.conn.rxBuffer generalizing state with
  | nil => exact ⟨[], state.conn, rfl, buffer, rfl⟩
  | cons pack rest ih =>
      have stepped : step state .recv = some
          { state with conn := { state.conn with rxBuffer := rest } } := by
        simp [step, sound, MultipathConnection.recv, buffer]
      obtain ⟨actions, conn, ran, empty, paths⟩ :=
        @ih { state with conn := { state.conn with rxBuffer := rest } } sound rfl
      refine ⟨.recv :: actions, conn, ?_, empty, paths⟩
      rw [run_cons, stepped]
      exact ran

theorem step_bare {before : State Path} (sound : before.faulted = false)
    (pending : before.scheduled ≠ 0) (bare : before.conn.paths = []) :
    step before .close = some { before with
      conn := { before.conn with connState := .closed },
      scheduled := before.scheduled - 1, notified := before.notified + 1 } := by
  simp [step, sound, pending, MultipathConnection.close_bare bare]

/-- A connection without paths and data: one `Close` event is left until it is closed. -/
structure Bare (state : State Path) : Prop where
  paths : state.conn.paths = []
  rxBuffer : state.conn.rxBuffer = []
  faulted : state.faulted = false
  counts : (state.notified = if state.conn.connState = .closed then 1 else 0) ∧
    state.scheduled = if state.conn.connState = .closed then 0 else 1

theorem step_keeps_bare {before after : State Path} {action : Action Path} (bare : Bare before)
    (stepped : step before action = some after) : Bare after := by
  by_cases isClose : action = .close
  · subst isClose
    obtain ⟨-, pending, -⟩ := step_close stepped
    rw [step_bare bare.faulted pending bare.paths] at stepped
    obtain rfl := Option.some.inj stepped
    have open_ : before.conn.connState ≠ .closed := by
      intro isClosed
      have counts := bare.counts.2
      rw [if_pos isClosed] at counts
      exact pending counts
    have counts := bare.counts
    rw [if_neg open_, if_neg open_] at counts
    exact ⟨bare.paths, bare.rxBuffer, bare.faulted, by simp [counts.1], by simp [counts.2]⟩
  · obtain ⟨paths, connState, scheduled, notified, faulted, rxBuffer⟩ := step_other stepped isClose
    refine ⟨paths.trans bare.paths, rxBuffer bare.paths bare.rxBuffer, faulted.trans bare.faulted, ?_⟩
    rw [connState, scheduled, notified]
    exact bare.counts

theorem Closes.no_paths {start : State Path} (called : Called start) (closes : Closes start) :
    start.conn.paths = [] := by
  by_contra filled
  obtain ⟨reads, conn, readRan, empty, paths⟩ := exists_reads called.faulted
  obtain ⟨reports, memory, reportRan, -, reported⟩ :=
    @exists_reports _ _ { start with conn } called.faulted start.conn.paths called.paths
  have ran := run_append_some readRan reportRan
  have quiet : AllReported { start with conn, memory } := by
    intro pointer member path found
    change pointer ∈ conn.paths at member
    rw [paths] at member
    obtain ⟨known, known_found, isReported⟩ := reported pointer member
    obtain rfl := Option.some.inj (found.symm.trans known_found)
    exact isReported
  obtain ⟨events, last, closing, isClosed⟩ := closes.ends _ _ ran quiet empty
  have opened := run_open filled called.connState (run_append_some ran closing)
  exact opened.2 isClosed

theorem Closes.no_data {start : State Path} (called : Called start) (closes : Closes start)
    (bare : start.conn.paths = []) : start.conn.rxBuffer = [] := by
  have stepped := step_bare called.faulted (by rw [called.scheduled]; decide) bare
  have safe := closes.safe [.close] _ (by rw [run_cons, stepped]; rfl)
  exact (safe.closed rfl).2

/-- A call of `Close` keeps what is asked of it exactly where there is no path and nothing to
read: a connection with paths is never closed, one without paths is closed over unread data. -/
theorem closes_iff {start : State Path} (called : Called start) :
    Closes start ↔ start.conn.paths = [] ∧ start.conn.rxBuffer = [] := by
  constructor
  · intro closes
    have bare := closes.no_paths called
    exact ⟨bare, closes.no_data called bare⟩
  · rintro ⟨bare, empty⟩
    have always : ∀ actions state, run step start actions = some state → Bare state := by
      intro actions state ran
      refine Reachable.invariant (fun _ _ _ => step_keeps_bare) ?_ ⟨actions, ran⟩
      refine ⟨bare, empty, called.faulted, ?_⟩
      rw [called.notified, called.scheduled, if_neg called.connState, if_neg called.connState]
      exact ⟨rfl, rfl⟩
    constructor
    · intro actions state ran
      obtain ⟨none_, read, sound, counts⟩ := always actions state ran
      refine ⟨sound, fun _ => ⟨?_, read⟩, ?_⟩
      · intro pointer member
        simp [none_] at member
      · split
        · rename_i isClosed
          simpa [isClosed] using counts.1
        · rename_i open_
          simpa [open_] using counts.1
    · intro actions state ran _ _
      obtain ⟨none_, read, sound, counts⟩ := always actions state ran
      by_cases isClosed : state.conn.connState = .closed
      · exact ⟨0, state, rfl, isClosed⟩
      · rw [if_neg isClosed, if_neg isClosed] at counts
        have stepped := step_bare sound (by rw [counts.2]; decide) none_
        exact ⟨1, _, by rw [List.replicate_one, run_cons, stepped]; rfl, rfl⟩

def bareCall : State Unit := { conn := {}, memory := fun _ => none, scheduled := 1 }

theorem bareCall_closes : Closes bareCall :=
  (closes_iff ⟨by decide, by simp [bareCall], rfl, rfl, rfl⟩).mpr ⟨rfl, rfl⟩

def onePathCall : State Unit :=
  { conn := { paths := [()], connState := .connect },
    memory := fun _ => some { hasSocket := true, pathState := .connected },
    scheduled := 1 }

/-- The first `Close` closes the socket of the only path.  Once it has reported, the next one
deletes the path and goes on with it. -/
theorem uses_deleted_path :
    Called onePathCall ∧ onePathCall.conn.rxBuffer = [] ∧
      (run step onePathCall [.close, .pathCloseSucceeded (), .close]).map State.faulted =
        some true ∧
      ¬ Closes onePathCall := by
  have called : Called onePathCall := by
    refine ⟨by decide, ?_, rfl, rfl, rfl⟩
    intro pointer _
    exact ⟨_, rfl, rfl⟩
  refine ⟨called, rfl, by decide, fun closes => ?_⟩
  have bare := closes.no_paths called
  cases bare

end Closing

end FISim
