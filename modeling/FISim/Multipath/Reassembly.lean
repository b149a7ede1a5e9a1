import FISim.Lib.Transition
import FISim.Multipath.Connection

/-!
Two connected ends of a multipath connection.  Every path is a FIFO that delivers
one DSN packet a chunk, the sender's sockets take every packet, and the receiver
reassembles in `PathRecvedData`.
-/

namespace FISim.Reassembly

variable {Path : Type}

structure State (Path : Type) where
  sender : MultipathConnection Path
  senderPaths : Path → SinglePath
  sendScheduled : ℕ
  wire : Path → List Packet
  receiver : MultipathConnection Path
  receiverPaths : Path → SinglePath
  recvScheduled : List Path
  -- history: the payloads passed to `Send`, and those that the application has taken
  passed : List Packet
  consumed : List Packet

inductive Action (Path : Type)
  | send (payload : Packet)
  | sendData
  | arrive (path : Path) (count : ℕ)
  | pathRecvedData (path : Path)
  | recv
  deriving DecidableEq

def onPath [DecidableEq Path] (path : Path) (flight : List (Path × Packet)) : List Packet :=
  (flight.filter fun item => item.1 = path).map Prod.snd

def step [DecidableEq Path] (before : State Path) : Action Path → Option (State Path)
  | .send payload =>
      let called := before.sender.send payload
      some { before with
        sender := called.conn
        sendScheduled := before.sendScheduled + if called.scheduled then 1 else 0
        passed := before.passed ++ if getSize payload = 0 then [] else [payload] }
  | .sendData =>
      if before.sendScheduled = 0 then none
      else do
        let ran ← before.sender.sendData before.senderPaths fun _ => .accepted
        return { before with
          sender := ran.conn
          senderPaths := ran.memory
          sendScheduled := before.sendScheduled - 1
          wire := fun path => before.wire path ++ onPath path ran.taken }
  | .arrive path count => do
      let (received, _) ←
        (before.receiverPaths path).processConnected ((before.wire path).take count)
      return { before with
        wire := Function.update before.wire path ((before.wire path).drop count)
        receiverPaths := Function.update before.receiverPaths path received
        recvScheduled := before.recvScheduled ++ [path] }
  | .pathRecvedData path =>
      if path ∉ before.recvScheduled then none
      else do
        let (conn, received, _) ← before.receiver.pathRecvedData (before.receiverPaths path)
        return { before with
          receiver := conn
          receiverPaths := Function.update before.receiverPaths path received
          recvScheduled := before.recvScheduled.erase path }
  | .recv =>
      let (pack, conn) := before.receiver.recv
      some { before with receiver := conn, consumed := before.consumed ++ pack.toList }

def pushed (state : State Path) : List Packet := state.consumed ++ state.receiver.rxBuffer

def Drained (state : State Path) : Prop :=
  state.sender.txBuffer = [] ∧
    ∀ path, state.wire path = [] ∧ (state.receiverPaths path).rxBuffer = []

/-- What was pushed is a prefix of what was passed, and all of it once nothing is on its way. -/
def Reassembled (state : State Path) : Prop :=
  pushed state <+: state.passed ∧ (Drained state → pushed state = state.passed)

def bytes (payloads : List Packet) : ℕ := (payloads.map List.length).sum

-- The path's packets run on from the receiver's next number.  A head numbered 0 is held back
-- by the source's test; an empty buffer against the number 0 fails its assertion.
def inOrder : MpDataSeqNum → List Packet → Bool
  | recvSeqNum, [] => recvSeqNum ≠ 0
  | recvSeqNum, packet :: rest =>
      match peekMultipathHeaderDSN packet with
      | none => false
      | some header =>
          if header.dataSeqNum = recvSeqNum then
            inOrder (recvSeqNum + (getSize (packet.drop 20)).toUInt64) rest
          else header.dataSeqNum = 0

/-- Sizes are those of an `int32_t`, the numbers of the packets that are under way are told
apart by 64 bits, and no path is ahead of the receiver when it is read. -/
def Orderly (state : State Path) : Action Path → Prop
  | .send payload =>
      payload.length < 2 ^ 31 ∧
        bytes state.passed - bytes (pushed state) + payload.length ≤ 2 ^ 64
  | .pathRecvedData path =>
      inOrder state.receiver.recvSeqNum (state.receiverPaths path).rxBuffer = true
  | _ => True

instance (state : State Path) (action : Action Path) : Decidable (Orderly state action) := by
  cases action <;> unfold Orderly <;> infer_instance

structure Fresh (start : State Path) : Prop where
  numbers : start.sender.sendSeqNum = start.receiver.recvSeqNum
  sockets : ∀ path, (start.senderPaths path).hasSocket = true
  txBuffer : start.sender.txBuffer = []
  wire : ∀ path, start.wire path = []
  rxBuffers : ∀ path, (start.receiverPaths path).rxBuffer = []
  rxBuffer : start.receiver.rxBuffer = []
  passed : start.passed = []
  consumed : start.consumed = []

def stampedPacket (cuid : CybertwinId) (seqNum : MpDataSeqNum) (payload : Packet) : Packet :=
  let header : MultipathHeaderDSN :=
    { cuid, dataSeqNum := seqNum, dataLen := (getSize payload).toInt32.toUInt32 }
  header.serialize ++ payload

def stamp (cuid : CybertwinId) : MpDataSeqNum → List Packet → List Packet
  | _, [] => []
  | seqNum, payload :: rest =>
      stampedPacket cuid seqNum payload :: stamp cuid (seqNum + UInt64.ofNat payload.length) rest

/-- The packets under way: `rest` are the payloads that were passed and not yet pushed, `flight`
those of their packets that have left the sender's buffer, with the path of each. -/
structure Tracks (state : State Path) [DecidableEq Path] (rest : List Packet)
    (flight : List (Path × Packet)) : Prop where
  passed : state.passed = pushed state ++ rest
  stream : flight.map Prod.snd ++ state.sender.txBuffer =
    stamp state.sender.localCyberID state.receiver.recvSeqNum rest
  sendSeqNum : state.sender.sendSeqNum =
    state.receiver.recvSeqNum + UInt64.ofNat (bytes rest)
  channel : ∀ path, (state.receiverPaths path).rxBuffer ++ state.wire path = onPath path flight
  sized : ∀ payload ∈ rest, 0 < payload.length ∧ payload.length < 2 ^ 31
  room : bytes rest ≤ 2 ^ 64
  sockets : ∀ path, (state.senderPaths path).hasSocket = true

theorem bytes_append (first second : List Packet) :
    bytes (first ++ second) = bytes first + bytes second := by
  simp [bytes]

theorem stamp_append (cuid : CybertwinId) (seqNum : MpDataSeqNum) (first second : List Packet) :
    stamp cuid seqNum (first ++ second) =
      stamp cuid seqNum first ++ stamp cuid (seqNum + UInt64.ofNat (bytes first)) second := by
  induction first generalizing seqNum with
  | nil => simp [stamp, bytes]
  | cons payload first ih =>
      simp only [List.cons_append, stamp, ih, bytes, List.map_cons, List.sum_cons,
        UInt64.ofNat_add, UInt64.add_assoc]

theorem stamp_length (cuid : CybertwinId) (seqNum : MpDataSeqNum) (payloads : List Packet) :
    (stamp cuid seqNum payloads).length = payloads.length := by
  induction payloads generalizing seqNum with
  | nil => rfl
  | cons payload payloads ih => simp [stamp, ih]

theorem peek_stampedPacket (cuid : CybertwinId) (seqNum : MpDataSeqNum) (payload : Packet) :
    peekMultipathHeaderDSN (stampedPacket cuid seqNum payload) =
      some { cuid, dataSeqNum := seqNum, dataLen := (getSize payload).toInt32.toUInt32 } :=
  peekMultipathHeaderDSN_serialize _ _

theorem drop_stampedPacket (cuid : CybertwinId) (seqNum : MpDataSeqNum) (payload : Packet) :
    (stampedPacket cuid seqNum payload).drop 20 = payload := by
  simp [stampedPacket]

theorem stamp_seqNum {cuid : CybertwinId} {seqNum : MpDataSeqNum} {offset : ℕ}
    {rest : List Packet} (sized : ∀ payload ∈ rest, 0 < payload.length) {packet : Packet}
    {header : MultipathHeaderDSN}
    (member : packet ∈ stamp cuid (seqNum + UInt64.ofNat offset) rest)
    (peeked : peekMultipathHeaderDSN packet = some header) :
    ∃ distance, offset ≤ distance ∧ distance < offset + bytes rest ∧
      header.dataSeqNum = seqNum + UInt64.ofNat distance := by
  induction rest generalizing offset with
  | nil => simp [stamp] at member
  | cons payload rest ih =>
      have positive := sized payload (by simp)
      simp only [bytes, List.map_cons, List.sum_cons]
      rw [stamp, List.mem_cons] at member
      rcases member with rfl | member
      · rw [peek_stampedPacket, Option.some.injEq] at peeked
        exact ⟨offset, le_refl _, by omega, by rw [← peeked]⟩
      · rw [UInt64.add_assoc, ← UInt64.ofNat_add] at member
        obtain ⟨distance, least, most, found⟩ :=
          ih (fun other inside => sized other (by simp [inside])) member
        rw [bytes] at most
        exact ⟨distance, by omega, by omega, found⟩

theorem stamp_tail_seqNum {cuid : CybertwinId} {seqNum : MpDataSeqNum} {payload : Packet}
    {rest : List Packet} (sized : ∀ other ∈ payload :: rest, 0 < other.length)
    (room : bytes (payload :: rest) ≤ 2 ^ 64) {packet : Packet} {header : MultipathHeaderDSN}
    (member : packet ∈ stamp cuid (seqNum + UInt64.ofNat payload.length) rest)
    (peeked : peekMultipathHeaderDSN packet = some header) : header.dataSeqNum ≠ seqNum := by
  obtain ⟨distance, least, most, found⟩ :=
    stamp_seqNum (fun other inside => sized other (by simp [inside])) member peeked
  have positive := sized payload (by simp)
  simp only [bytes, List.map_cons, List.sum_cons] at room most
  intro same
  rw [found] at same
  have values := congrArg UInt64.toNat same
  have small := seqNum.toNat_lt
  rw [UInt64.toNat_add, UInt64.toNat_ofNat_of_lt' (by omega : distance < 2 ^ 64)] at values
  omega

theorem getSize_length {payload : Packet} (small : payload.length < 2 ^ 31) :
    (getSize payload).toUInt64 = UInt64.ofNat payload.length := by
  rw [← UInt64.toNat_inj, UInt32.toNat_toUInt64, getSize_toNat (by omega),
    UInt64.toNat_ofNat_of_lt' (by omega : payload.length < 2 ^ 64)]

theorem toInt32_length {payload : Packet} (small : payload.length < 2 ^ 31) :
    (getSize payload).toInt32.toInt64.toUInt64 = UInt64.ofNat payload.length := by
  have positive : (getSize payload).toInt32.toBitVec.msb = false := by
    rw [BitVec.msb_eq_false_iff_two_mul_lt]
    change 2 * (payload.length % 2 ^ 32) < 2 ^ 32
    omega
  apply UInt64.toBitVec_inj.mp
  change (getSize payload).toInt32.toBitVec.signExtend 64 = _
  rw [BitVec.signExtend_eq_setWidth_of_msb_false positive]
  apply BitVec.eq_of_toNat_eq
  rw [BitVec.toNat_setWidth]
  change payload.length % 2 ^ 32 % 2 ^ 64 = payload.length % 2 ^ 64
  omega

theorem getSize_eq_zero {payload : Packet} (small : payload.length < 2 ^ 31) :
    getSize payload = 0 ↔ payload.length = 0 := by
  rw [← UInt32.toNat_inj, getSize_toNat (by omega)]
  rfl

theorem pathRecvedDataLoop_isSome {turns : ℕ} {conn : MultipathConnection Path}
    {path : SinglePath} (enough : path.rxBuffer.length < turns)
    (ordered : inOrder conn.recvSeqNum path.rxBuffer = true) :
    (MultipathConnection.pathRecvedDataLoop turns conn path).isSome := by
  induction turns generalizing conn path with
  | zero => simp at enough
  | succ turns ih =>
      cases buffer : path.rxBuffer with
      | nil =>
          rw [buffer, inOrder, decide_eq_true_eq] at ordered
          rw [MultipathConnection.pathRecvedDataLoop_nil buffer, if_neg ordered]
          rfl
      | cons packet left =>
          rw [buffer] at enough ordered
          rw [inOrder] at ordered
          cases peeked : peekMultipathHeaderDSN packet with
          | none => simp [peeked] at ordered
          | some header =>
              rw [MultipathConnection.pathRecvedDataLoop_cons buffer peeked]
              simp only [peeked] at ordered
              by_cases expected : header.dataSeqNum = conn.recvSeqNum
              · rw [if_pos expected] at ordered
                rw [if_pos (Or.inl expected.symm)]
                exact ih (by simpa using enough) ordered
              · rw [if_neg expected, decide_eq_true_eq] at ordered
                rw [if_neg (by simp [ordered, Ne.symm (ordered ▸ expected)])]
                rfl

theorem pathRecvedData_isSome {conn : MultipathConnection Path} {path : SinglePath}
    (ordered : inOrder conn.recvSeqNum path.rxBuffer = true) :
    (conn.pathRecvedData path).isSome := by
  obtain ⟨result, looped⟩ := Option.isSome_iff_exists.mp
    (pathRecvedDataLoop_isSome (Nat.lt_succ_self path.rxBuffer.length) ordered)
  simp only [MultipathConnection.pathRecvedData, looped, Option.bind_eq_bind, Option.bind_some]
  rfl

variable [DecidableEq Path] {state : State Path} {rest : List Packet}
variable {flight : List (Path × Packet)}

theorem onPath_append (path : Path) (first second : List (Path × Packet)) :
    onPath path (first ++ second) = onPath path first ++ onPath path second := by
  simp [onPath]

theorem tracks_fresh {start : State Path} (fresh : Fresh start) : Tracks start [] [] where
  passed := by simp [pushed, fresh.passed, fresh.consumed, fresh.rxBuffer]
  stream := by simp [stamp, fresh.txBuffer]
  sendSeqNum := by simp [bytes, fresh.numbers]
  channel path := by simp [onPath, fresh.wire, fresh.rxBuffers]
  sized := by simp
  room := by simp [bytes]
  sockets := fresh.sockets

theorem Tracks.send (tracks : Tracks state rest flight) {payload : Packet} {next : State Path}
    (orderly : Orderly state (.send payload)) (stepped : step state (.send payload) = some next) :
    ∃ rest flight, Tracks next rest flight := by
  rw [step, Option.some.injEq] at stepped
  subst stepped
  obtain ⟨small, room⟩ := orderly
  by_cases empty : getSize payload = 0
  · rw [MultipathConnection.send_empty _ empty, if_pos empty, List.append_nil]
    exact ⟨rest, flight, tracks.passed, tracks.stream, tracks.sendSeqNum, tracks.channel,
      tracks.sized, tracks.room, tracks.sockets⟩
  · rw [MultipathConnection.send_filled _ empty, if_neg empty]
    have positive := (getSize_eq_zero small).not.mp empty
    refine ⟨rest ++ [payload], flight, ?_, ?_, ?_, tracks.channel, ?_, ?_, tracks.sockets⟩
    · simp only [pushed, tracks.passed, List.append_assoc]
    · rw [← List.append_assoc, tracks.stream, stamp_append, ← tracks.sendSeqNum]
      rfl
    · rw [bytes_append, UInt64.ofNat_add, ← UInt64.add_assoc, ← tracks.sendSeqNum,
        toInt32_length small]
      simp [bytes]
    · intro other member
      rcases List.mem_append.mp member with earlier | latest
      · exact tracks.sized other earlier
      · rw [List.mem_singleton.mp latest]
        exact ⟨by omega, small⟩
    · rw [tracks.passed, bytes_append] at room
      rw [bytes_append]
      simp only [bytes, List.map_cons, List.map_nil, List.sum_cons, List.sum_nil] at room ⊢
      omega

theorem Tracks.sendData (tracks : Tracks state rest flight) {next : State Path}
    (stepped : step state .sendData = some next) : ∃ rest flight, Tracks next rest flight := by
  simp only [step] at stepped
  split at stepped
  · simp at stepped
  · obtain ⟨ran, happened, result⟩ := Option.bind_eq_some_iff.mp stepped
    simp only [Option.pure_def, Option.some.injEq] at result
    subst result
    rcases MultipathConnection.sendData_cases happened with
      ⟨empty, rfl⟩ | ⟨_, pointer, lastPathIndex, sent, choice, rfl⟩
    · refine ⟨rest, flight, tracks.passed, tracks.stream, tracks.sendSeqNum, ?_, tracks.sized,
        tracks.room, tracks.sockets⟩
      simpa [onPath] using tracks.channel
    · have usable : (state.senderPaths pointer).usable = true := by
        simp [SinglePath.usable, tracks.sockets pointer,
          MultipathConnection.choosePathRoundRobin_connected choice]
      rw [MultipathConnection.takenFrom_accepted fun index _ => ⟨usable, rfl⟩]
      refine ⟨rest, flight ++ (state.sender.txBuffer.take
        MultipathConnection.MULTIPATH_MAXSENT_PACKET_ONCE).map fun pkt => (pointer, pkt),
        tracks.passed, ?_, tracks.sendSeqNum, ?_, tracks.sized, tracks.room, ?_⟩
      · rw [← tracks.stream]
        simp [Function.comp_def]
      · intro path
        rw [onPath_append, ← tracks.channel, List.append_assoc]
      · intro path
        by_cases same : path = pointer
        · subst same
          simp [tracks.sockets path]
        · simp [same, tracks.sockets path]

theorem Tracks.arrive (tracks : Tracks state rest flight) {path : Path} {count : ℕ}
    {next : State Path} (stepped : step state (.arrive path count) = some next) :
    ∃ rest flight, Tracks next rest flight := by
  obtain ⟨⟨received, events⟩, processed, result⟩ := Option.bind_eq_some_iff.mp stepped
  simp only [Option.pure_def, Option.some.injEq] at result
  subst result
  obtain ⟨_, _, rfl⟩ := SinglePath.processConnected_cases processed
  refine ⟨rest, flight, tracks.passed, tracks.stream, tracks.sendSeqNum, ?_, tracks.sized,
    tracks.room, tracks.sockets⟩
  intro other
  rw [← tracks.channel other]
  by_cases same : other = path
  · subst same
    simp
  · simp [same]

theorem Tracks.recv (tracks : Tracks state rest flight) {next : State Path}
    (stepped : step state .recv = some next) : ∃ rest flight, Tracks next rest flight := by
  simp only [step, MultipathConnection.recv, Option.some.injEq] at stepped
  subst stepped
  refine ⟨rest, flight, ?_, ?_, ?_, tracks.channel, tracks.sized, tracks.room, tracks.sockets⟩
  · rw [tracks.passed]
    cases buffer : state.receiver.rxBuffer <;> simp [pushed, buffer]
  · rw [tracks.stream]
    cases buffer : state.receiver.rxBuffer <;> rfl
  · rw [tracks.sendSeqNum]
    cases buffer : state.receiver.rxBuffer <;> rfl

/-- The first packet of a path that carries the expected number is the first one under way. -/
theorem Tracks.head (tracks : Tracks state rest flight) {path : Path} {packet : Packet}
    {left : List Packet} {header : MultipathHeaderDSN}
    (buffer : (state.receiverPaths path).rxBuffer = packet :: left)
    (peeked : peekMultipathHeaderDSN packet = some header)
    (expected : header.dataSeqNum = state.receiver.recvSeqNum) :
    ∃ payload later ahead, rest = payload :: later ∧ flight = (path, packet) :: ahead ∧
      packet.drop 20 = payload := by
  have channel := tracks.channel path
  rw [buffer, List.cons_append] at channel
  have inFlight : (path, packet) ∈ flight := by
    have member : packet ∈ onPath path flight := by rw [← channel]; simp
    obtain ⟨item, inside, rfl⟩ := List.mem_map.mp member
    obtain ⟨inFlight, owner⟩ := List.mem_filter.mp inside
    have same : item.1 = path := by simpa using owner
    rw [← same]
    exact inFlight
  have stream := tracks.stream
  cases flight with
  | nil => simp at inFlight
  | cons item ahead =>
      cases rest with
      | nil => simp [stamp] at stream
      | cons payload later =>
          simp only [List.map_cons, List.cons_append, stamp, List.cons.injEq] at stream
          rcases List.mem_cons.mp inFlight with here | behind
          · refine ⟨payload, later, ahead, rfl, by rw [here], ?_⟩
            have first : packet = item.2 := congrArg Prod.snd here
            rw [first, stream.1, drop_stampedPacket]
          · have member : packet ∈ ahead.map Prod.snd ++ state.sender.txBuffer :=
              List.mem_append_left _ (List.mem_map_of_mem behind)
            rw [stream.2] at member
            exact absurd expected (stamp_tail_seqNum
              (fun other inside => (tracks.sized other inside).1) tracks.room member peeked)

def popped (state : State Path) (path : Path) (packet : Packet) (left : List Packet) :
    State Path :=
  { state with
    receiver := state.receiver.pushReceived (packet.drop 20)
    receiverPaths := Function.update state.receiverPaths path
      { state.receiverPaths path with rxBuffer := left } }

theorem Tracks.pop (tracks : Tracks state rest flight) {path : Path} {packet : Packet}
    {left : List Packet} {header : MultipathHeaderDSN}
    (buffer : (state.receiverPaths path).rxBuffer = packet :: left)
    (peeked : peekMultipathHeaderDSN packet = some header)
    (expected : header.dataSeqNum = state.receiver.recvSeqNum) :
    ∃ rest flight, Tracks (popped state path packet left) rest flight := by
  obtain ⟨payload, later, ahead, rfl, rfl, body⟩ := tracks.head buffer peeked expected
  have small := (tracks.sized payload (by simp)).2
  have stream := tracks.stream
  simp only [List.map_cons, List.cons_append, stamp, List.cons.injEq] at stream
  have room := tracks.room
  simp only [bytes, List.map_cons, List.sum_cons] at room
  refine ⟨later, ahead, ?_, ?_, ?_, ?_, ?_, ?_, tracks.sockets⟩
  · have passed := tracks.passed
    simp only [pushed, popped, MultipathConnection.pushReceived, body] at passed ⊢
    rw [passed]
    simp
  · rw [← getSize_length small, ← body] at stream
    exact stream.2
  · have number := tracks.sendSeqNum
    rw [bytes, List.map_cons, List.sum_cons, UInt64.ofNat_add, ← UInt64.add_assoc,
      ← getSize_length small, ← body] at number
    exact number
  · intro other
    have channel := tracks.channel other
    by_cases same : other = path
    · subst same
      rw [buffer] at channel
      simpa [popped, onPath] using channel
    · have foreign : ¬path = other := fun equal => same equal.symm
      simpa [popped, onPath, same, foreign] using channel
  · exact fun other member => tracks.sized other (by simp [member])
  · rw [bytes]
    omega

theorem Tracks.loop {path : Path} {turns : ℕ} {conn : MultipathConnection Path}
    {received : SinglePath} (tracks : Tracks state rest flight)
    (ordered : inOrder state.receiver.recvSeqNum (state.receiverPaths path).rxBuffer = true)
    (looped : MultipathConnection.pathRecvedDataLoop turns state.receiver
      (state.receiverPaths path) = some (conn, received)) :
    ∃ rest flight, Tracks { state with
      receiver := conn
      receiverPaths := Function.update state.receiverPaths path received } rest flight := by
  induction turns generalizing state rest flight with
  | zero => simp [MultipathConnection.pathRecvedDataLoop] at looped
  | succ turns ih =>
      cases buffer : (state.receiverPaths path).rxBuffer with
      | nil =>
          rw [MultipathConnection.pathRecvedDataLoop_nil buffer] at looped
          split at looped
          · simp at looped
          · simp only [Option.some.injEq, Prod.mk.injEq] at looped
            obtain ⟨rfl, rfl⟩ := looped
            rw [Function.update_eq_self]
            exact ⟨rest, flight, tracks⟩
      | cons packet left =>
          rw [buffer, inOrder] at ordered
          cases peeked : peekMultipathHeaderDSN packet with
          | none => simp [peeked] at ordered
          | some header =>
              rw [MultipathConnection.pathRecvedDataLoop_cons buffer peeked] at looped
              simp only [peeked] at ordered
              by_cases expected : header.dataSeqNum = state.receiver.recvSeqNum
              · rw [if_pos (Or.inl expected.symm)] at looped
                rw [if_pos expected] at ordered
                obtain ⟨_, _, after⟩ := tracks.pop buffer peeked expected
                have step := ih after
                  (by simpa [popped, MultipathConnection.pushReceived] using ordered)
                  (by simpa [popped] using looped)
                simpa [popped] using step
              · rw [if_neg expected, decide_eq_true_eq] at ordered
                have held : ¬(state.receiver.recvSeqNum = header.dataSeqNum ∨
                    header.dataSeqNum ≠ 0) := by
                  rintro (equal | nonzero)
                  · exact expected equal.symm
                  · exact nonzero ordered
                rw [if_neg held, Option.some.injEq, Prod.mk.injEq] at looped
                obtain ⟨rfl, rfl⟩ := looped
                rw [Function.update_eq_self]
                exact ⟨rest, flight, tracks⟩

theorem Tracks.pathRecvedData (tracks : Tracks state rest flight) {path : Path}
    {next : State Path} (orderly : Orderly state (.pathRecvedData path))
    (stepped : step state (.pathRecvedData path) = some next) :
    ∃ rest flight, Tracks next rest flight := by
  simp only [step] at stepped
  split at stepped
  · simp at stepped
  · obtain ⟨⟨conn, received, notified⟩, happened, result⟩ := Option.bind_eq_some_iff.mp stepped
    obtain ⟨⟨after, left⟩, looped, unpacked⟩ := Option.bind_eq_some_iff.mp happened
    simp only [Option.pure_def, Option.some.injEq, Prod.mk.injEq] at result unpacked
    obtain ⟨rfl, rfl, _⟩ := unpacked
    subst result
    obtain ⟨rest, flight, moved⟩ := tracks.loop orderly looped
    exact ⟨rest, flight, moved.passed, moved.stream, moved.sendSeqNum, moved.channel, moved.sized,
      moved.room, moved.sockets⟩

theorem Tracks.reassembled (tracks : Tracks state rest flight) : Reassembled state := by
  refine ⟨⟨rest, tracks.passed.symm⟩, ?_⟩
  rintro ⟨txBuffer, paths⟩
  have noFlight : flight = [] := by
    cases flight with
    | nil => rfl
    | cons item ahead =>
        have channel := tracks.channel item.1
        rw [(paths item.1).1, (paths item.1).2] at channel
        simp [onPath] at channel
  have stream := tracks.stream
  rw [txBuffer, noFlight, List.append_nil, List.map_nil] at stream
  have nothing : rest = [] := by
    rw [← List.length_eq_zero_iff, ← stamp_length, ← stream]
    rfl
  rw [tracks.passed, nothing, List.append_nil]

/-- Over any number of paths and in any interleaving, orderly steps keep what the receiver has
pushed a prefix of what was passed, and the whole of it when the paths have drained. -/
theorem reassembled_of_orderly (start : State Path) (fresh : Fresh start)
    (actions : List (Action Path)) (orderly : Transition.Guarded step Orderly start actions) :
    Transition.Throughout step Reassembled start actions := by
  have tracked : Transition.Throughout step (fun state => ∃ rest flight, Tracks state rest flight)
      start actions := by
    refine Transition.throughout_of_guarded ?_ ⟨[], [], tracks_fresh fresh⟩ orderly
    rintro state action next ⟨rest, flight, tracks⟩ orderly stepped
    cases action with
    | send payload => exact tracks.send orderly stepped
    | sendData => exact tracks.sendData stepped
    | arrive path count => exact tracks.arrive stepped
    | pathRecvedData path => exact tracks.pathRecvedData orderly stepped
    | recv => exact tracks.recv stepped
  intro first second middle split ran
  obtain ⟨rest, flight, tracks⟩ := tracked first second middle split ran
  exact tracks.reassembled

def twoPaths : State Bool where
  sender := { connID := 9, paths := [false, true], sendSeqNum := 9, recvSeqNum := 9 }
  senderPaths := fun _ => { hasSocket := true, pathState := .connected, connID := 9 }
  sendScheduled := 0
  wire := fun _ => []
  receiver := { connID := 9, paths := [false, true], sendSeqNum := 9, recvSeqNum := 9 }
  receiverPaths := fun _ => { hasSocket := true, pathState := .connected, connID := 9 }
  recvScheduled := []
  passed := []
  consumed := []

def sendOnBoth : List (Action Bool) := [.send [1], .sendData, .send [2], .sendData]

theorem reassembled_twoPaths :
    Transition.Throughout step Reassembled twoPaths
      (sendOnBoth ++ [.arrive false 1, .arrive true 1, .pathRecvedData false, .recv,
        .pathRecvedData true]) :=
  reassembled_of_orderly twoPaths ⟨rfl, fun _ => rfl, rfl, fun _ => rfl, fun _ => rfl, rfl, rfl, rfl⟩
    _ (by decide +kernel)

-- The second path overtakes the first: its packet is pushed at once, not held back.
theorem overtaken_twoPaths :
    ¬ Transition.Throughout step Reassembled twoPaths
      (sendOnBoth ++ [.arrive true 1, .pathRecvedData true]) := by
  intro reassembled
  have last := reassembled _ [] _ (List.append_nil _).symm rfl
  exact absurd last.1 (by decide +kernel)

end FISim.Reassembly
