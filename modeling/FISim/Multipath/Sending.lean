import FISim.Lib.Transition
import FISim.Multipath.Connection

/-!
The sending half of a connection: the application's calls of `Send`, the
scheduled `SendData` events, and sockets that take or refuse each packet.
-/

namespace FISim.Sending

variable {Path : Type}

structure State (Path : Type) where
  conn : MultipathConnection Path
  memory : Path → SinglePath
  scheduled : ℕ
  -- history: the payloads passed to `Send`, and the packets that sockets have taken
  passed : List Packet
  accepted : List (Path × Packet)

inductive Action
  | send (payload : Packet)
  | sendData (answer : ℕ → SocketAnswer)

def step [DecidableEq Path] (before : State Path) : Action → Option (State Path)
  | .send payload =>
      let called := before.conn.send payload
      some { before with
        conn := called.conn
        scheduled := before.scheduled + if called.scheduled then 1 else 0
        passed := before.passed ++ if getSize payload = 0 then [] else [payload] }
  | .sendData answer =>
      if before.scheduled = 0 then none
      else do
        let ran ← before.conn.sendData before.memory answer
        return { before with
          conn := ran.conn
          memory := ran.memory
          scheduled := before.scheduled - 1
          accepted := before.accepted ++ ran.taken }

def acceptedPackets (state : State Path) : List Packet := state.accepted.map Prod.snd

/-- Taken and buffered packets are the passed ones, and the count is that of what was taken.
`counted` is what the count started from. -/
structure Lossless (counted : UInt64) (state : State Path) : Prop where
  packets : (acceptedPackets state ++ state.conn.txBuffer).map (fun packet => packet.drop 20) =
    state.passed
  bytes : state.conn.txTotalBytes = counted + SinglePath.payloadBytes (acceptedPackets state)

/-- The chosen path's socket takes every packet of the burst. -/
def NoneRefused [DecidableEq Path] (state : State Path) : Action → Prop
  | .send _ => True
  | .sendData answer =>
      ∀ pointer conn, state.conn.choosePathRoundRobin state.memory = some (pointer, conn) →
        ∀ index < (state.conn.txBuffer.take MultipathConnection.MULTIPATH_MAXSENT_PACKET_ONCE).length,
          (state.memory pointer).usable = true ∧ answer index = .accepted

theorem acceptedPackets_append (state : State Path) (pointer : Path) (taken : List Packet) :
    (state.accepted ++ taken.map fun pkt => (pointer, pkt)).map Prod.snd =
      acceptedPackets state ++ taken := by
  simp [acceptedPackets, Function.comp_def]

variable [DecidableEq Path]

theorem send_lossless {counted : UInt64} {before after : State Path} {payload : Packet}
    (lossless : Lossless counted before)
    (stepped : step before (.send payload) = some after) : Lossless counted after := by
  rw [step, Option.some.injEq] at stepped
  subst stepped
  by_cases empty : getSize payload = 0
  · rw [MultipathConnection.send_empty _ empty, if_pos empty, List.append_nil]
    exact ⟨lossless.packets, lossless.bytes⟩
  · rw [MultipathConnection.send_filled _ empty, if_neg empty]
    refine ⟨?_, lossless.bytes⟩
    have kept := lossless.packets
    simp only [acceptedPackets, List.map_append] at kept ⊢
    rw [← kept]
    simp [MultipathConnection.dsnPacket]

theorem sendData_lossless_iff {counted : UInt64} {before after : State Path}
    {answer : ℕ → SocketAnswer} (lossless : Lossless counted before)
    (stepped : step before (.sendData answer) = some after) :
    Lossless counted after ↔ NoneRefused before (.sendData answer) := by
  simp only [step] at stepped
  split at stepped
  · simp at stepped
  · obtain ⟨ran, happened, result⟩ := Option.bind_eq_some_iff.mp stepped
    simp only [Option.pure_def, Option.some.injEq] at result
    subst result
    rcases MultipathConnection.sendData_cases happened with
      ⟨empty, rfl⟩ | ⟨_, pointer, lastPathIndex, bytes, choice, rfl⟩
    · simp only [NoneRefused, empty, List.take_nil, List.length_nil, Nat.not_lt_zero,
        false_implies, implies_true, iff_true]
      constructor
      · simpa [acceptedPackets] using lossless.packets
      · simpa [acceptedPackets] using lossless.bytes
    · have exactly : NoneRefused before (.sendData answer) ↔ ∀ index <
          (before.conn.txBuffer.take MultipathConnection.MULTIPATH_MAXSENT_PACKET_ONCE).length,
          (before.memory pointer).usable = true ∧ answer (0 + index) = .accepted := by
        simp [NoneRefused, choice]
      have kept := lossless.packets
      have counted_ := lossless.bytes
      rw [exactly]
      constructor
      · intro lossless
        have after := congrArg List.length lossless.packets
        rw [← kept] at after
        simp only [acceptedPackets, List.map_append, List.length_append, List.length_map,
          List.length_drop] at after
        rw [← MultipathConnection.takenFrom_length_iff, List.length_take]
        omega
      · intro accepted
        rw [MultipathConnection.takenFrom_accepted accepted]
        refine ⟨?_, ?_⟩
        · rw [acceptedPackets, acceptedPackets_append, List.append_assoc, List.take_append_drop]
          exact kept
        · rw [acceptedPackets, acceptedPackets_append, SinglePath.payloadBytes_append,
            ← UInt64.add_assoc, ← counted_]

/-- In every run, packets and their count survive throughout exactly when no packet of any
burst is refused. -/
theorem lossless_iff_noneRefused (start : State Path) (idle : start.conn.txBuffer = [])
    (unpassed : start.passed = []) (untaken : start.accepted = []) (actions : List Action)
    (ran : (Transition.run step start actions).isSome) :
    Transition.Throughout step (Lossless start.conn.txTotalBytes) start actions ↔
      Transition.Guarded step NoneRefused start actions := by
  have initial : Lossless start.conn.txTotalBytes start := by
    constructor
    · simp [acceptedPackets, idle, unpassed, untaken]
    · simp [acceptedPackets, untaken, SinglePath.payloadBytes]
  refine Transition.throughout_iff_guarded (fun before action after lossless stepped => ?_)
    initial ran
  cases action with
  | send payload =>
      simp only [NoneRefused, iff_true]
      exact send_lossless lossless stepped
  | sendData answer => exact sendData_lossless_iff lossless stepped

def onePath : State Unit where
  conn := { connID := 9, connState := .connect, paths := [()], sendSeqNum := 9, recvSeqNum := 9 }
  memory := fun _ => { hasSocket := true, pathState := .connected, connID := 9 }
  scheduled := 0
  passed := []
  accepted := []

theorem lossless_onePath :
    Transition.Throughout step (Lossless onePath.conn.txTotalBytes) onePath
      [.send [7], .sendData fun _ => .accepted] := by
  refine (lossless_iff_noneRefused onePath rfl rfl rfl _ (by decide)).mpr ⟨trivial, ?_⟩
  rintro next stepped
  refine ⟨?_, fun _ _ => trivial⟩
  rw [← Option.some.inj stepped]
  rintro pointer conn _ index _
  exact ⟨rfl, rfl⟩

-- The packet that the socket refuses is popped and counted all the same.
theorem lost_onePath :
    ¬ Transition.Throughout step (Lossless onePath.conn.txTotalBytes) onePath
      [.send [7], .sendData fun _ => .refused (-1) (by decide)] := by
  intro lossless
  have last := lossless _ [] _ (List.append_nil _).symm rfl
  exact absurd last.packets (by decide +kernel)

end FISim.Sending
