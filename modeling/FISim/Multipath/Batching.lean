import FISim.Lib.Transition
import FISim.Multipath.Server

/-!
How the chunks that a path's socket delivers are grouped into receive events.  A
receive event runs the state machine once, on what earlier events left unread
and on the chunks that have arrived since.
-/

namespace FISim.Batching

variable {Path : Type}

def receiveEvent (pointer : Path) (before : Processed Path) (batch : List Packet) :
    Option (Processed Path) := do
  let after ← before.path.stateProcesser before.server pointer (before.unread ++ batch)
  return { after with
    scheduled := before.scheduled ++ after.scheduled, replies := before.replies ++ after.replies }

structure Observed where
  pathState : PathStatus
  connID : MpConnId
  remoteKey : MpConnKey
  handshakeEvents : List PathEvent
  rxBuffer : List Packet
  deriving DecidableEq, Repr

def observe (done : Processed Path) : Observed where
  pathState := done.path.pathState
  connID := done.path.connID
  remoteKey := done.path.remoteKey
  handshakeEvents := done.scheduled.filter (· ≠ .pathRecvedData)
  rxBuffer := done.path.rxBuffer

def fresh (server : CybertwinDataTransferServer Path) (path : SinglePath) : Processed Path :=
  { server, path, unread := [], scheduled := [], replies := [] }

def outcome (server : CybertwinDataTransferServer Path) (pointer : Path) (path : SinglePath)
    (batches : List (List Packet)) : Option Observed :=
  (Transition.run (receiveEvent pointer) (fresh server path) batches).map observe

def messages (reply : MultipathHeader) (data : List (MultipathHeaderDSN × Packet)) :
    List Packet :=
  reply.serialize :: data.map fun item => item.1.serialize ++ item.2

def separately (stream : List Packet) : List (List Packet) := stream.map fun message => [message]

theorem separately_flatten (stream : List Packet) : (separately stream).flatten = stream := by
  induction stream with
  | nil => rfl
  | cons message rest ih =>
      rw [separately, List.map_cons, List.flatten_cons]
      exact congrArg (message :: ·) ih

theorem receiveEvent_connected {pointer : Path} {before : Processed Path} {batch : List Packet}
    (connected : before.path.pathState = .connected) (read : before.unread = [])
    (long : ∀ packet ∈ batch, 20 ≤ packet.length) :
    ∃ after, receiveEvent pointer before batch = some after ∧ after.unread = [] ∧
      observe after = { observe before with rxBuffer := before.path.rxBuffer ++ batch } := by
  have pushed := SinglePath.foldlM_pushReceived batch before.path long
  refine ⟨_, by
    simp only [receiveEvent, SinglePath.stateProcesser, connected, SinglePath.processConnected,
      read, List.nil_append, pushed, Option.bind_eq_bind, Option.bind_some, Option.pure_def]
    rfl, rfl, ?_⟩
  simp [observe, connected]

theorem run_connected (pointer : Path) (batches : List (List Packet)) {before : Processed Path}
    (connected : before.path.pathState = .connected) (read : before.unread = [])
    (long : ∀ packet ∈ batches.flatten, 20 ≤ packet.length) :
    (Transition.run (receiveEvent pointer) before batches).map observe =
      some { observe before with rxBuffer := before.path.rxBuffer ++ batches.flatten } := by
  induction batches generalizing before with
  | nil => simp [observe]
  | cons batch rest ih =>
      rw [List.flatten_cons] at long
      obtain ⟨after, received, unread, seen⟩ := receiveEvent_connected connected read
        fun packet member => long packet (List.mem_append_left _ member)
      have stillConnected : after.path.pathState = .connected :=
        (congrArg Observed.pathState seen).trans connected
      have buffer : after.path.rxBuffer = before.path.rxBuffer ++ batch :=
        congrArg Observed.rxBuffer seen
      rw [Transition.run_cons, received, Option.bind_some,
        ih stillConnected unread fun packet member => long packet (List.mem_append_right _ member),
        seen, buffer]
      simp

theorem receiveEvent_error {pointer : Path} {before : Processed Path} (batch : List Packet)
    (failed : before.path.pathState = .error) :
    receiveEvent pointer before batch = some { before with unread := before.unread ++ batch } := by
  simp [receiveEvent, SinglePath.stateProcesser, failed]

theorem run_error (pointer : Path) (batches : List (List Packet)) {before : Processed Path}
    (failed : before.path.pathState = .error) :
    (Transition.run (receiveEvent pointer) before batches).map observe = some (observe before) := by
  induction batches generalizing before with
  | nil => rfl
  | cons batch rest ih =>
      have stays : ({ before with unread := before.unread ++ batch } : Processed Path).path.pathState
          = .error := failed
      rw [Transition.run_cons, receiveEvent_error batch failed, Option.bind_some, ih stays]
      rfl

theorem receiveEvent_waiting {pointer : Path} {before : Processed Path}
    (waiting : before.path.pathState = .buildSent ∨ before.path.pathState = .joinSent)
    (read : before.unread = []) : receiveEvent pointer before [] = some before := by
  obtain ⟨server, path, unread, scheduled, replies⟩ := before
  simp only at waiting read
  subst read
  rcases waiting with building | joining
  · simp [receiveEvent, SinglePath.stateProcesser, building, SinglePath.processBuildSent,
      SinglePath.buildSentLoop]
  · simp [receiveEvent, SinglePath.stateProcesser, joining, SinglePath.processJoinSent]

theorem run_waiting (pointer : Path) {silent : List (List Packet)} {before : Processed Path}
    (waiting : before.path.pathState = .buildSent ∨ before.path.pathState = .joinSent)
    (read : before.unread = []) (nothing : ∀ batch ∈ silent, batch = []) :
    Transition.run (receiveEvent pointer) before silent = some before := by
  induction silent with
  | nil => rfl
  | cons batch rest ih =>
      rw [nothing batch (by simp), Transition.run_cons, receiveEvent_waiting waiting read,
        Option.bind_some]
      exact ih fun other member => nothing other (by simp [member])

theorem firstBatch_split {batches : List (List Packet)} {head : Packet} {tail : List Packet}
    (partition : batches.flatten = head :: tail) :
    ∃ silent more later, batches = silent ++ (head :: more) :: later ∧
      (∀ batch ∈ silent, batch = []) ∧ more ++ later.flatten = tail ∧
      batches.find? (· ≠ []) = some (head :: more) := by
  induction batches with
  | nil => simp at partition
  | cons batch rest ih =>
      cases batch with
      | nil =>
          rw [List.flatten_cons, List.nil_append] at partition
          obtain ⟨silent, more, later, split, nothing, joined, found⟩ := ih partition
          refine ⟨[] :: silent, more, later, by rw [split]; rfl, ?_, joined, by simpa using found⟩
          intro batch member
          rcases List.mem_cons.mp member with here | there
          · exact here
          · exact nothing batch there
      | cons packet more =>
          rw [List.flatten_cons, List.cons_append, List.cons.injEq] at partition
          obtain ⟨rfl, joined⟩ := partition
          exact ⟨[], more, rest, rfl, by simp, joined, by simp⟩

theorem outcome_split (server : CybertwinDataTransferServer Path) (pointer : Path)
    {path : SinglePath} (waiting : path.pathState = .buildSent ∨ path.pathState = .joinSent)
    {silent : List (List Packet)} (nothing : ∀ batch ∈ silent, batch = [])
    (first : List Packet) (later : List (List Packet)) :
    outcome server pointer path (silent ++ first :: later) =
      (receiveEvent pointer (fresh server path) first).bind fun after =>
        (Transition.run (receiveEvent pointer) after later).map observe := by
  have waits : Transition.run (receiveEvent pointer) (fresh server path) silent =
      some (fresh server path) := run_waiting pointer waiting rfl nothing
  rw [outcome, Transition.run_append, waits, Option.bind_some, Transition.run_cons]
  cases receiveEvent pointer (fresh server path) first <;> rfl

theorem receiveEvent_reply {server : CybertwinDataTransferServer Path} {pointer : Path}
    {path : SinglePath} {reply : MultipathHeader} {after : Processed Path}
    (waiting : path.pathState = .buildSent ∨ path.pathState = .joinSent)
    (received : receiveEvent pointer (fresh server path) [reply.serialize] = some after) :
    after.unread = [] ∧ after.path.rxBuffer = path.rxBuffer ∧
      (observe after).handshakeEvents.length = 1 ∧
      (after.path.pathState = .connected ∨
        path.pathState = .joinSent ∧ after.path.pathState = .error) := by
  rcases waiting with building | joining
  · simp only [receiveEvent, fresh, SinglePath.stateProcesser, building, List.nil_append,
      SinglePath.processBuildSent, SinglePath.buildSentLoop_cons, peekMultipathHeader_serialize,
      Option.bind_some] at received
    split at received
    · simp only [SinglePath.buildSentLoop, Option.bind_eq_bind, Option.bind_some, if_true,
        Option.pure_def, Option.some.injEq] at received
      simp [← received, observe]
    · simp at received
  · simp only [receiveEvent, fresh, SinglePath.stateProcesser, joining, List.nil_append,
      SinglePath.processJoinSent_cons, peekMultipathHeader_serialize, Option.bind_some,
      SinglePath.processJoinSent, Option.bind_eq_bind, Option.pure_def, Option.some.injEq]
      at received
    by_cases same : reply.connId = path.connID
    · simp [← received, same, observe]
    · simp [← received, same, joining, observe]

theorem receiveEvent_reply_none {server : CybertwinDataTransferServer Path} {pointer : Path}
    {path : SinglePath} {reply : MultipathHeader} (more : List Packet)
    (building : path.pathState = .buildSent) (unfit : reply.connId = 0 ∨ reply.senderKey = 0) :
    receiveEvent pointer (fresh server path) (reply.serialize :: more) = none := by
  have refused : ¬(reply.connId ≠ 0 ∧ reply.senderKey ≠ 0) := by tauto
  simp [receiveEvent, fresh, SinglePath.stateProcesser, building, SinglePath.processBuildSent,
    SinglePath.buildSentLoop_cons, peekMultipathHeader_serialize, refused]

theorem messages_long {data : List (MultipathHeaderDSN × Packet)} {packet : Packet}
    (member : packet ∈ data.map fun item => item.1.serialize ++ item.2) : 20 ≤ packet.length := by
  obtain ⟨item, _, rfl⟩ := List.mem_map.mp member
  simp

theorem outcome_alone {server : CybertwinDataTransferServer Path} {pointer : Path}
    {path : SinglePath} (waiting : path.pathState = .buildSent ∨ path.pathState = .joinSent)
    {reply : MultipathHeader} {silent later : List (List Packet)}
    (nothing : ∀ batch ∈ silent, batch = [])
    (long : ∀ packet ∈ later.flatten, 20 ≤ packet.length) :
    outcome server pointer path (silent ++ [reply.serialize] :: later) =
      outcome server pointer path ([reply.serialize] :: separately later.flatten) := by
  have alone := outcome_split server pointer waiting (List.forall_mem_nil _) [reply.serialize] (separately later.flatten)
  rw [List.nil_append] at alone
  rw [outcome_split server pointer waiting nothing, alone]
  cases received : receiveEvent pointer (fresh server path) [reply.serialize] with
  | none => rfl
  | some after =>
      have same := separately_flatten later.flatten
      obtain ⟨unread, _, _, connected | ⟨_, failed⟩⟩ := receiveEvent_reply waiting received
      · rw [Option.bind_some, Option.bind_some, run_connected pointer later connected unread long,
          run_connected pointer (separately later.flatten) connected unread (by rw [same]; exact long), same]
      · rw [Option.bind_some, Option.bind_some, run_error pointer later failed,
          run_error pointer (separately later.flatten) failed]

/-- An event that carries data with the reply loses the data or reports the join twice. -/
theorem receiveEvent_crowded {server : CybertwinDataTransferServer Path} {pointer : Path}
    {path : SinglePath} {first : List Packet} {after : Processed Path}
    (waiting : path.pathState = .buildSent ∨ path.pathState = .joinSent) (filled : first ≠ [])
    (received : receiveEvent pointer (fresh server path) first = some after) :
    after.unread = [] ∧
      (path.pathState = .buildSent ∧ after.path.pathState = .connected ∧
          after.path.rxBuffer = path.rxBuffer ∨
        path.pathState = .joinSent ∧
          (after.path.pathState = .connected ∨ after.path.pathState = .error) ∧
          (observe after).handshakeEvents.length = first.length) := by
  rcases waiting with building | joining
  · simp only [receiveEvent, fresh, SinglePath.stateProcesser, building, List.nil_append,
      SinglePath.processBuildSent] at received
    cases looped : path.buildSentLoop first with
    | none => simp [looped] at received
    | some built =>
        have connected := SinglePath.buildSentLoop_connected looped (Or.inr filled)
        have kept := SinglePath.buildSentLoop_rxBuffer looped
        simp only [looped, connected, Option.bind_eq_bind, Option.bind_some, if_true,
          Option.pure_def, Option.some.injEq] at received
        rw [← received]
        exact ⟨rfl, Or.inl ⟨building, connected, kept⟩⟩
  · simp only [receiveEvent, fresh, SinglePath.stateProcesser, joining, List.nil_append]
      at received
    cases processed : path.processJoinSent first with
    | none => simp [processed] at received
    | some result =>
        obtain ⟨size, clean⟩ := SinglePath.processJoinSent_events processed
        have settled := SinglePath.processJoinSent_settled processed (Or.inr (Or.inr filled))
        have kept : result.2.filter (· ≠ .pathRecvedData) = result.2 := by
          rw [List.filter_eq_self]
          intro event member
          simpa using fun same : event = .pathRecvedData => clean (same ▸ member)
        simp only [processed, Option.bind_eq_bind, Option.bind_some, Option.pure_def,
          Option.some.injEq] at received
        rw [← received]
        refine ⟨rfl, Or.inr ⟨joining, settled, ?_⟩⟩
        simp only [observe, kept, size]

theorem outcome_crowded {server : CybertwinDataTransferServer Path} {pointer : Path}
    {path : SinglePath} (waiting : path.pathState = .buildSent ∨ path.pathState = .joinSent)
    {silent later : List (List Packet)} {packet : Packet} {more : List Packet} {seen : Observed}
    (nothing : ∀ batch ∈ silent, batch = [])
    (long : ∀ packet ∈ later.flatten, 20 ≤ packet.length)
    (ended : outcome server pointer path (silent ++ (packet :: more) :: later) = some seen) :
    path.pathState = .buildSent ∧ seen.rxBuffer = path.rxBuffer ++ later.flatten ∨
      path.pathState = .joinSent ∧ seen.handshakeEvents.length = more.length + 1 := by
  rw [outcome_split server pointer waiting nothing] at ended
  obtain ⟨after, received, final⟩ := Option.bind_eq_some_iff.mp ended
  obtain ⟨unread, ⟨building, connected, kept⟩ | ⟨joining, connected | failed, count⟩⟩ :=
    receiveEvent_crowded waiting (List.cons_ne_nil packet more) received
  · rw [run_connected pointer later connected unread long, Option.some.injEq] at final
    exact Or.inl ⟨building, by rw [← final, kept]⟩
  · rw [run_connected pointer later connected unread long, Option.some.injEq] at final
    exact Or.inr ⟨joining, by rw [← final]; exact count⟩
  · rw [run_error pointer later failed, Option.some.injEq] at final
    exact Or.inr ⟨joining, by rw [← final]; exact count⟩

theorem receiveEvent_reply_isSome (server : CybertwinDataTransferServer Path) (pointer : Path)
    {path : SinglePath} {reply : MultipathHeader}
    (waiting : path.pathState = .buildSent ∨ path.pathState = .joinSent)
    (fit : path.pathState = .buildSent → reply.connId ≠ 0 ∧ reply.senderKey ≠ 0) :
    (receiveEvent pointer (fresh server path) [reply.serialize]).isSome := by
  rcases waiting with building | joining
  · simp [receiveEvent, fresh, SinglePath.stateProcesser, building, SinglePath.processBuildSent,
      SinglePath.buildSentLoop_cons, peekMultipathHeader_serialize, fit building,
      SinglePath.buildSentLoop]
  · simp [receiveEvent, fresh, SinglePath.stateProcesser, joining,
      SinglePath.processJoinSent_cons, peekMultipathHeader_serialize, SinglePath.processJoinSent]

theorem outcome_separately (server : CybertwinDataTransferServer Path) (pointer : Path)
    {path : SinglePath} (waiting : path.pathState = .buildSent ∨ path.pathState = .joinSent)
    {reply : MultipathHeader} {data : List Packet}
    (long : ∀ packet ∈ data, 20 ≤ packet.length)
    (fit : path.pathState = .buildSent → reply.connId ≠ 0 ∧ reply.senderKey ≠ 0) :
    ∃ seen, outcome server pointer path (separately (reply.serialize :: data)) = some seen ∧
      (path.pathState = .buildSent → seen.rxBuffer = path.rxBuffer ++ data) ∧
      seen.handshakeEvents.length = 1 := by
  obtain ⟨after, received⟩ := Option.isSome_iff_exists.mp
    (receiveEvent_reply_isSome server pointer waiting fit)
  have split : outcome server pointer path (separately (reply.serialize :: data)) =
      (Transition.run (receiveEvent pointer) after (separately data)).map observe := by
    have alone := outcome_split server pointer waiting (List.forall_mem_nil _) [reply.serialize] (separately data)
    rwa [received, Option.bind_some] at alone
  have same := separately_flatten data
  obtain ⟨unread, kept, once, connected | ⟨joining, failed⟩⟩ := receiveEvent_reply waiting received
  · have ran := run_connected pointer (separately data) connected unread
      (by rw [same]; exact long)
    rw [same, kept] at ran
    exact ⟨_, split.trans ran, fun _ => rfl, once⟩
  · have ran := run_error pointer (separately data) failed
    refine ⟨_, split.trans ran, fun building => ?_, once⟩
    rw [joining] at building
    cases building

/-- Grouping leaves the outcome alone exactly when the reply is alone in its event (or is one
that the path refuses in any grouping). -/
theorem outcome_eq_separately_iff (server : CybertwinDataTransferServer Path) (pointer : Path)
    (path : SinglePath) (waiting : path.pathState = .buildSent ∨ path.pathState = .joinSent)
    (reply : MultipathHeader) (data : List (MultipathHeaderDSN × Packet))
    (batches : List (List Packet)) (partition : batches.flatten = messages reply data) :
    outcome server pointer path batches =
        outcome server pointer path (separately (messages reply data)) ↔
      batches.find? (· ≠ []) = some [reply.serialize] ∨
        path.pathState = .buildSent ∧ (reply.connId = 0 ∨ reply.senderKey = 0) := by
  obtain ⟨silent, more, later, rfl, nothing, joined, found⟩ := firstBatch_split partition
  have longData : ∀ packet ∈ more ++ later.flatten, 20 ≤ packet.length := by
    rw [joined]
    exact fun packet member => messages_long member
  have longLater : ∀ packet ∈ later.flatten, 20 ≤ packet.length :=
    fun packet member => longData packet (List.mem_append_right _ member)
  rw [found, messages, ← joined]
  by_cases unfit : path.pathState = .buildSent ∧ (reply.connId = 0 ∨ reply.senderKey = 0)
  · have together := outcome_split server pointer waiting nothing
      (reply.serialize :: more) later
    have apart := outcome_split server pointer waiting (List.forall_mem_nil _) [reply.serialize] (separately (more ++ later.flatten))
    rw [receiveEvent_reply_none _ unfit.1 unfit.2, Option.bind_none] at together apart
    simp only [unfit, or_true, and_self, iff_true]
    exact together.trans apart.symm
  · have fit : path.pathState = .buildSent → reply.connId ≠ 0 ∧ reply.senderKey ≠ 0 := by tauto
    simp only [unfit, or_false, Option.some.injEq, List.cons.injEq, true_and]
    constructor
    · intro same
      obtain ⟨seen, apart, buffer, once⟩ :=
        outcome_separately server pointer waiting longData fit
      rw [apart] at same
      rcases outcome_crowded waiting nothing longLater same with ⟨building, kept⟩ | ⟨_, count⟩
      · rw [buffer building, List.append_cancel_left_eq, List.append_left_eq_self] at kept
        exact kept
      · exact List.eq_nil_of_length_eq_zero (by omega)
    · rintro rfl
      exact outcome_alone waiting nothing longLater

def waitingPath : SinglePath := { hasSocket := true, localKey := 1, pathState := .buildSent }

def builtReply : MultipathHeader :=
  { senderKey := 2, recverKey := 1, connId := spKeysToConnId 1 2 }

def firstData : List (MultipathHeaderDSN × Packet) :=
  [({ dataSeqNum := spKeysToConnId 1 2, dataLen := 8 }, [1, 2, 3, 4, 5, 6, 7, 8])]

theorem outcome_replyAlone :
    outcome {} () waitingPath [[], messages builtReply [], (messages builtReply firstData).tail] =
      outcome {} () waitingPath (separately (messages builtReply firstData)) :=
  (outcome_eq_separately_iff {} () waitingPath (Or.inl rfl) builtReply firstData _ rfl).mpr
    (Or.inl rfl)

-- The data that arrives with the reply is read as a second reply.
theorem outcome_replyWithData :
    [messages builtReply firstData].flatten = messages builtReply firstData ∧
      outcome {} () waitingPath [messages builtReply firstData] ≠
        outcome {} () waitingPath (separately (messages builtReply firstData)) := by
  decide +kernel

end FISim.Batching
