import FISim.Lib.Transition
import FISim.Multipath.Connection
import Mathlib.Data.UInt
import Mathlib.Order.CompletePartialOrder
import Mathlib.Tactic.Abel

/-!
One end of an established connection, with any number of paths: what its `Send`
numbers, and the byte counters of the connection and of its paths as chunks
arrive and are handed over.
-/

namespace FISim.Accounting

open Transition
open scoped UInt64.CommRing

variable {Path : Type}

structure State (Path : Type) where
  conn : MultipathConnection Path
  paths : Path → SinglePath
  sendScheduled : ℕ := 0
  recvScheduled : List Path := []
  -- history: the headers that `Send` has put in front of its packets
  headers : List MultipathHeaderDSN := []

inductive Action (Path : Type)
  | send (payload : Packet)
  | sendData (answer : ℕ → SocketAnswer)
  | arrive (path : Path) (chunks : List Packet)
  | pathRecvedData (path : Path)
  | recv

def addedHeaders (before after : List Packet) : List MultipathHeaderDSN :=
  (after.drop before.length).filterMap peekMultipathHeaderDSN

def step [DecidableEq Path] (before : State Path) : Action Path → Option (State Path)
  | .send payload =>
      let called := before.conn.send payload
      some { before with
        conn := called.conn
        sendScheduled := before.sendScheduled + if called.scheduled then 1 else 0
        headers := before.headers ++ addedHeaders before.conn.txBuffer called.conn.txBuffer }
  | .sendData answer =>
      if before.sendScheduled = 0 then none
      else do
        let ran ← before.conn.sendData before.paths answer
        return { before with
          conn := ran.conn, paths := ran.memory, sendScheduled := before.sendScheduled - 1 }
  | .arrive path chunks =>
      if (before.paths path).pathState ≠ .connected then none
      else do
        let (received, _) ← (before.paths path).processConnected chunks
        return { before with
          paths := Function.update before.paths path received
          recvScheduled := before.recvScheduled ++ [path] }
  | .pathRecvedData path =>
      if path ∉ before.recvScheduled then none
      else do
        let (conn, received, _) ← before.conn.pathRecvedData (before.paths path)
        return { before with
          conn
          paths := Function.update before.paths path received
          recvScheduled := before.recvScheduled.erase path }
  | .recv => some { before with conn := before.conn.recv.2 }

structure Established (start : State Path) : Prop where
  sendSeqNum : start.conn.sendSeqNum = start.conn.connID
  recvSeqNum : start.conn.recvSeqNum = start.conn.connID
  rxBuffers : ∀ path, (start.paths path).rxBuffer = []
  headers : start.headers = []

/-- The numbers, modulo 2^64, of the bytes that a header announces. -/
def interval (header : MultipathHeaderDSN) : Set MpDataSeqNum :=
  {number | (number - header.dataSeqNum).toNat < header.dataLen.toNat}

def Contiguous : MpDataSeqNum → List MultipathHeaderDSN → Prop
  | _, [] => True
  | number, header :: rest =>
      header.dataSeqNum = number ∧ Contiguous (number + header.dataLen.toUInt64) rest

structure Tiled (connID : MpConnId) (headers : List MultipathHeaderDSN) : Prop where
  contiguous : Contiguous connID headers
  disjoint : headers.Pairwise fun first second => Disjoint (interval first) (interval second)

/-- What the receiving side has counted since the connection was established. -/
structure Accounted [Fintype Path] (start state : State Path) : Prop where
  received : state.conn.recvSeqNum - state.conn.connID =
    state.conn.rxTotalBytes - start.conn.rxTotalBytes
  conserved : ∑ path, ((state.paths path).rxTotalBytes - (start.paths path).rxTotalBytes) =
    (state.conn.rxTotalBytes - start.conn.rxTotalBytes) +
      ∑ path, SinglePath.payloadBytes (state.paths path).rxBuffer

def totalLen (headers : List MultipathHeaderDSN) : ℕ :=
  (headers.map fun header => header.dataLen.toNat).sum

def Small (header : MultipathHeaderDSN) : Prop := header.dataLen.toNat < 2 ^ 31

/-- No packet but the last is longer than an `int32_t` says, and all of them fit into the numbers
of 64 bits. -/
def Fits (state : State Path) : Action Path → Prop
  | .send payload => getSize payload ≠ 0 →
      (∀ header ∈ state.headers, Small header) ∧
        totalLen state.headers + (getSize payload).toNat ≤ 2 ^ 64
  | _ => True

theorem totalLen_concat (headers : List MultipathHeaderDSN) (header : MultipathHeaderDSN) :
    totalLen (headers ++ [header]) = totalLen headers + header.dataLen.toNat := by
  simp [totalLen]

theorem toUInt64_eq_ofNat (size : UInt32) : size.toUInt64 = UInt64.ofNat size.toNat := by
  apply UInt64.toNat_inj.mp
  have small := size.toNat_lt
  rw [UInt32.toNat_toUInt64, UInt64.toNat_ofNat_of_lt' (by omega : size.toNat < 2 ^ 64)]

theorem contiguous_concat (number : MpDataSeqNum) (headers : List MultipathHeaderDSN)
    (header : MultipathHeaderDSN) :
    Contiguous number (headers ++ [header]) ↔
      Contiguous number headers ∧
        header.dataSeqNum = number + UInt64.ofNat (totalLen headers) := by
  induction headers generalizing number with
  | nil => simp [Contiguous, totalLen]
  | cons first rest ih =>
      have total : totalLen (first :: rest) = first.dataLen.toNat + totalLen rest := by
        simp [totalLen]
      rw [List.cons_append, Contiguous, Contiguous, ih, and_assoc, total, UInt64.ofNat_add,
        ← UInt64.add_assoc, toUInt64_eq_ofNat]

theorem Contiguous.offset {number : MpDataSeqNum} {headers : List MultipathHeaderDSN}
    (contiguous : Contiguous number headers) {header : MultipathHeaderDSN}
    (member : header ∈ headers) :
    ∃ offset, header.dataSeqNum = number + UInt64.ofNat offset ∧
      offset + header.dataLen.toNat ≤ totalLen headers := by
  obtain ⟨before, after, rfl⟩ := List.append_of_mem member
  have upTo : Contiguous number (before ++ [header]) := by
    clear member
    induction before generalizing number with
    | nil => exact ⟨contiguous.1, trivial⟩
    | cons first rest ih => exact ⟨contiguous.1, ih contiguous.2⟩
  refine ⟨totalLen before, ((contiguous_concat _ _ _).mp upTo).2, ?_⟩
  simp [totalLen]

theorem mem_interval {number : MpDataSeqNum} {header : MultipathHeaderDSN} {offset : ℕ}
    (placed : header.dataSeqNum = number + UInt64.ofNat offset)
    (room : offset + header.dataLen.toNat ≤ 2 ^ 64) (other : MpDataSeqNum) :
    other ∈ interval header ↔ offset ≤ (other - number).toNat ∧
      (other - number).toNat < offset + header.dataLen.toNat := by
  have shifted : other - header.dataSeqNum = (other - number) - UInt64.ofNat offset := by
    rw [placed]
    abel
  have small := (other - number).toNat_lt
  change (other - header.dataSeqNum).toNat < _ ↔ _
  rw [shifted, UInt64.toNat_sub, UInt64.toNat_ofNat']
  omega

/-- A header that continues the others is disjoint from them exactly if all of them fit into the
numbers of 64 bits. -/
theorem disjoint_concat_iff {number : MpDataSeqNum} {headers : List MultipathHeaderDSN}
    {header : MultipathHeaderDSN} (contiguous : Contiguous number (headers ++ [header]))
    (room : totalLen headers ≤ 2 ^ 64)
    (filled : ∀ other ∈ headers ++ [header], other.dataLen.toNat ≠ 0) :
    (∀ other ∈ headers, Disjoint (interval other) (interval header)) ↔
      totalLen headers + header.dataLen.toNat ≤ 2 ^ 64 := by
  obtain ⟨before, placed⟩ := (contiguous_concat _ _ _).mp contiguous
  constructor
  · intro disjoint
    cases headers with
    | nil =>
        have small := header.dataLen.toNat_lt
        simp only [totalLen, List.map_nil, List.sum_nil]
        omega
    | cons first rest =>
        by_contra exceeds
        have inFirst : number ∈ interval first := by
          have size := filled first (by simp)
          change (number - first.dataSeqNum).toNat < _
          rw [before.1, UInt64.sub_self, UInt64.toNat_zero]
          omega
        have inHeader : number ∈ interval header := by
          have size := filled header (by simp)
          change (number - header.dataSeqNum).toNat < _
          have shifted : number - header.dataSeqNum =
              0 - UInt64.ofNat (totalLen (first :: rest)) := by
            rw [placed]
            abel
          rw [shifted, UInt64.toNat_sub, UInt64.toNat_ofNat', UInt64.toNat_zero]
          omega
        exact Set.disjoint_left.mp (disjoint first (by simp)) inFirst inHeader
  · intro fits other member
    obtain ⟨offset, elsewhere, inside⟩ := before.offset member
    rw [Set.disjoint_left]
    intro shared inOther inHeader
    have low := (mem_interval elsewhere (by omega) shared).mp inOther
    have high := (mem_interval placed fits shared).mp inHeader
    omega

/-- The sign of an `int32_t` stays out of the next number exactly below 2^31 bytes. -/
theorem signed_size_iff (size : UInt32) :
    size.toInt32.toInt64.toUInt64 = size.toUInt64 ↔ size.toNat < 2 ^ 31 := by
  rw [← UInt64.toNat_inj, UInt32.toNat_toUInt64]
  change (size.toBitVec.signExtend 64).toNat = size.toBitVec.toNat ↔ size.toBitVec.toNat < 2 ^ 31
  have small := size.toBitVec.isLt
  rw [BitVec.toNat_signExtend, BitVec.toNat_setWidth, BitVec.msb_eq_decide]
  split
  · rename_i large
    simp only [decide_eq_true_eq] at large
    omega
  · rename_i large
    simp only [decide_eq_true_eq] at large
    omega

/-- What a hand-over, and each of its turns, moves from a path to the connection. -/
structure HandedOver (conn : MultipathConnection Path) (path : SinglePath)
    (after : MultipathConnection Path) (left : SinglePath) : Prop where
  connID : after.connID = conn.connID
  sendSeqNum : after.sendSeqNum = conn.sendSeqNum
  counted : left.rxTotalBytes = path.rxTotalBytes
  received : after.recvSeqNum - conn.recvSeqNum = after.rxTotalBytes - conn.rxTotalBytes
  moved : after.rxTotalBytes + SinglePath.payloadBytes left.rxBuffer =
    conn.rxTotalBytes + SinglePath.payloadBytes path.rxBuffer

theorem getSize_drop {packet : Packet} (long : 20 ≤ packet.length) :
    getSize (packet.drop 20) = getSize packet - 20 := by
  unfold getSize
  rw [List.length_drop, UInt32.ofNat_sub long]
  rfl

theorem handedOver_of_loop {turns : ℕ} {conn after : MultipathConnection Path}
    {path left : SinglePath}
    (looped : MultipathConnection.pathRecvedDataLoop turns conn path = some (after, left)) :
    HandedOver conn path after left := by
  induction turns generalizing conn path with
  | zero => simp [MultipathConnection.pathRecvedDataLoop] at looped
  | succ turns ih =>
      have stays : some (conn, path) = some (after, left) → HandedOver conn path after left := by
        intro same
        obtain ⟨rfl, rfl⟩ := Prod.mk.inj (Option.some.inj same)
        exact ⟨rfl, rfl, rfl, by rw [UInt64.sub_self, UInt64.sub_self], rfl⟩
      cases buffer : path.rxBuffer with
      | nil =>
          rw [MultipathConnection.pathRecvedDataLoop_nil buffer] at looped
          split at looped
          · cases looped
          · exact stays looped
      | cons packet rest =>
          cases peeked : peekMultipathHeaderDSN packet with
          | none =>
              simp [MultipathConnection.pathRecvedDataLoop, SinglePath.headPacketSeqNum, buffer,
                peeked] at looped
          | some header =>
              rw [MultipathConnection.pathRecvedDataLoop_cons buffer peeked] at looped
              split at looped
              · have long := (peekMultipathHeaderDSN_isSome packet).mp (by rw [peeked]; rfl)
                have turn := ih looped
                have received := turn.received
                have moved := turn.moved
                simp only [MultipathConnection.pushReceived, getSize_drop long]
                  at received moved
                refine ⟨turn.connID, turn.sendSeqNum, turn.counted, ?_, ?_⟩
                · rw [sub_eq_sub_iff_add_eq_add] at received ⊢
                  apply add_right_cancel (b := (getSize packet - 20).toUInt64)
                  rw [add_assoc, add_assoc, received]
                · rw [moved, buffer]
                  simp only [SinglePath.payloadBytes, List.map_cons, List.sum_cons]
                  abel
              · exact stays looped

theorem handedOver {conn after : MultipathConnection Path} {path left : SinglePath}
    {notified : Bool} (handed : conn.pathRecvedData path = some (after, left, notified)) :
    HandedOver conn path after left := by
  obtain ⟨⟨taken, remaining⟩, looped, unpacked⟩ := Option.bind_eq_some_iff.mp handed
  simp only [Option.pure_def, Option.some.injEq, Prod.mk.injEq] at unpacked
  obtain ⟨rfl, rfl, -⟩ := unpacked
  exact handedOver_of_loop looped

section Counters

variable [Fintype Path] {start state : State Path}

theorem sum_path [DecidableEq Path] (value : SinglePath → UInt64) (paths : Path → SinglePath) (path : Path)
    (after : SinglePath) :
    ∑ each, value (Function.update paths path after each) =
      ∑ each, value (paths each) + (value after - value (paths path)) := by
  have split : ∀ memory : Path → SinglePath, ∑ each, value (memory each) =
      value (memory path) + ∑ each ∈ Finset.univ.erase path, value (memory each) :=
    fun memory => (Finset.add_sum_erase _ _ (Finset.mem_univ path)).symm
  have elsewhere : ∑ each ∈ Finset.univ.erase path,
      value (Function.update paths path after each) =
        ∑ each ∈ Finset.univ.erase path, value (paths each) := by
    apply Finset.sum_congr rfl
    intro each inside
    rw [Function.update_of_ne (Finset.ne_of_mem_erase inside)]
  rw [split, elsewhere, Function.update_self, split paths]
  abel

theorem accounted_iff (start state : State Path) :
    Accounted start state ↔
      state.conn.recvSeqNum - state.conn.connID =
          state.conn.rxTotalBytes - start.conn.rxTotalBytes ∧
        ∑ path, (state.paths path).rxTotalBytes + start.conn.rxTotalBytes =
          ∑ path, (start.paths path).rxTotalBytes + state.conn.rxTotalBytes +
            ∑ path, SinglePath.payloadBytes (state.paths path).rxBuffer := by
  have rearranged : ∀ paths begun conn first queued : UInt64,
      paths - begun = (conn - first) + queued ↔ paths + first = begun + conn + queued := by
    intro paths begun conn first queued
    rw [sub_eq_iff_eq_add, ← eq_sub_iff_add_eq]
    constructor
    · rintro rfl
      abel
    · rintro rfl
      abel
  constructor
  · rintro ⟨received, conserved⟩
    rw [Finset.sum_sub_distrib] at conserved
    exact ⟨received, (rearranged _ _ _ _ _).mp conserved⟩
  · rintro ⟨received, conserved⟩
    refine ⟨received, ?_⟩
    rw [Finset.sum_sub_distrib]
    exact (rearranged _ _ _ _ _).mpr conserved

theorem Established.accounted (established : Established start) : Accounted start start := by
  rw [accounted_iff]
  refine ⟨by rw [established.recvSeqNum, UInt64.sub_self, UInt64.sub_self], ?_⟩
  have empty : ∑ path, SinglePath.payloadBytes (start.paths path).rxBuffer = 0 :=
    Finset.sum_eq_zero fun path _ => by rw [established.rxBuffers path]; rfl
  rw [empty]
  abel

theorem Accounted.same {next : State Path} (accounted : Accounted start state)
    (connID : next.conn.connID = state.conn.connID)
    (recvSeqNum : next.conn.recvSeqNum = state.conn.recvSeqNum)
    (rxTotalBytes : next.conn.rxTotalBytes = state.conn.rxTotalBytes)
    (counted : ∀ path, (next.paths path).rxTotalBytes = (state.paths path).rxTotalBytes)
    (queued : ∀ path, (next.paths path).rxBuffer = (state.paths path).rxBuffer) :
    Accounted start next := by
  constructor
  · rw [connID, recvSeqNum, rxTotalBytes]
    exact accounted.received
  · simp only [counted, queued, rxTotalBytes]
    exact accounted.conserved

variable [DecidableEq Path] {next : State Path}

theorem Accounted.arrive (accounted : Accounted start state) {path : Path}
    {chunks : List Packet} (stepped : step state (.arrive path chunks) = some next) :
    Accounted start next := by
  simp only [step] at stepped
  split at stepped
  · cases stepped
  · obtain ⟨⟨received, events⟩, processed, result⟩ := Option.bind_eq_some_iff.mp stepped
    obtain ⟨-, -, rfl⟩ := SinglePath.processConnected_cases processed
    rw [← Option.some.inj result]
    rw [accounted_iff] at accounted ⊢
    obtain ⟨received, conserved⟩ := accounted
    refine ⟨received, ?_⟩
    simp only [sum_path SinglePath.rxTotalBytes,
      sum_path fun each => SinglePath.payloadBytes each.rxBuffer, SinglePath.payloadBytes_append]
    rw [← sub_eq_zero] at conserved ⊢
    rw [← conserved]
    abel

theorem Accounted.pathRecvedData (accounted : Accounted start state) {path : Path}
    (stepped : step state (.pathRecvedData path) = some next) : Accounted start next := by
  simp only [step] at stepped
  split at stepped
  · cases stepped
  · obtain ⟨⟨conn, left, notified⟩, handed, result⟩ := Option.bind_eq_some_iff.mp stepped
    have outcome := handedOver handed
    rw [← Option.some.inj result]
    rw [accounted_iff] at accounted ⊢
    obtain ⟨received, conserved⟩ := accounted
    constructor
    · have grown := outcome.received
      rw [← sub_eq_zero] at grown received ⊢
      simp only [outcome.connID]
      rw [← add_zero (0 : UInt64)]
      nth_rewrite 1 [← grown]
      rw [← received]
      abel
    · have moved := outcome.moved
      simp only [sum_path SinglePath.rxTotalBytes,
        sum_path fun each => SinglePath.payloadBytes each.rxBuffer, outcome.counted]
      rw [← sub_eq_zero] at conserved moved ⊢
      rw [← sub_zero (0 : UInt64)]
      nth_rewrite 1 [← conserved]
      rw [← moved]
      abel

omit [Fintype Path] in
theorem sendData_frame {answer : ℕ → SocketAnswer}
    (stepped : step state (.sendData answer) = some next) :
    next.headers = state.headers ∧ next.conn.connID = state.conn.connID ∧
      next.conn.sendSeqNum = state.conn.sendSeqNum ∧
      next.conn.recvSeqNum = state.conn.recvSeqNum ∧
      next.conn.rxTotalBytes = state.conn.rxTotalBytes ∧
      ∀ path, (next.paths path).rxTotalBytes = (state.paths path).rxTotalBytes ∧
        (next.paths path).rxBuffer = (state.paths path).rxBuffer := by
  simp only [step] at stepped
  split at stepped
  · cases stepped
  · obtain ⟨ran, happened, result⟩ := Option.bind_eq_some_iff.mp stepped
    rw [← Option.some.inj result]
    rcases MultipathConnection.sendData_cases happened with ⟨-, rfl⟩ | ⟨-, pointer, _, _, -, rfl⟩
    · exact ⟨rfl, rfl, rfl, rfl, rfl, fun path => ⟨rfl, rfl⟩⟩
    · refine ⟨rfl, rfl, rfl, rfl, rfl, ?_⟩
      intro path
      by_cases here : path = pointer
      · subst here
        simp
      · simp [here]

/-- The counters of the receiving side agree whatever is sent and in whatever order the chunks of
the paths arrive. -/
theorem step_accounted (accounted : Accounted start state) {action : Action Path}
    (stepped : step state action = some next) : Accounted start next := by
  cases action with
  | send payload =>
      rw [← Option.some.inj stepped]
      by_cases empty : getSize payload = 0
      · rw [MultipathConnection.send_empty _ empty]
        exact accounted.same rfl rfl rfl (fun _ => rfl) (fun _ => rfl)
      · rw [MultipathConnection.send_filled _ empty]
        exact accounted.same rfl rfl rfl (fun _ => rfl) (fun _ => rfl)
  | sendData answer =>
      obtain ⟨-, connID, -, recvSeqNum, rxTotalBytes, paths⟩ := sendData_frame stepped
      exact accounted.same connID recvSeqNum rxTotalBytes (fun path => (paths path).1)
        (fun path => (paths path).2)
  | arrive path chunks => exact accounted.arrive stepped
  | pathRecvedData path => exact accounted.pathRecvedData stepped
  | recv =>
      rw [← Option.some.inj stepped]
      unfold MultipathConnection.recv
      split
      · exact accounted.same rfl rfl rfl (fun _ => rfl) (fun _ => rfl)
      · exact accounted.same rfl rfl rfl (fun _ => rfl) (fun _ => rfl)

/-- Both sides of the connection, and the number that `Send` uses next. -/
structure Inv (start state : State Path) : Prop where
  tiled : Tiled state.conn.connID state.headers
  filled : ∀ header ∈ state.headers, header.dataLen.toNat ≠ 0
  room : totalLen state.headers ≤ 2 ^ 64
  next : state.conn.sendSeqNum =
    state.conn.connID + UInt64.ofNat (totalLen state.headers) ↔
      ∀ header ∈ state.headers, Small header
  accounted : Accounted start state

omit [DecidableEq Path] in
theorem Inv.initial (established : Established start) : Inv start start where
  tiled := by
    rw [established.headers]
    exact ⟨trivial, List.Pairwise.nil⟩
  filled := by simp [established.headers]
  room := by simp [established.headers, totalLen]
  next := by simp [established.headers, established.sendSeqNum, totalLen]
  accounted := established.accounted

omit [Fintype Path] in
theorem send_filled {payload : Packet} (filled : getSize payload ≠ 0)
    (stepped : step state (.send payload) = some next) :
    ∃ header : MultipathHeaderDSN, header.dataSeqNum = state.conn.sendSeqNum ∧
      header.dataLen = getSize payload ∧ next.headers = state.headers ++ [header] ∧
      next.conn.connID = state.conn.connID ∧ next.conn.sendSeqNum =
        state.conn.sendSeqNum + header.dataLen.toInt32.toInt64.toUInt64 := by
  rw [← Option.some.inj stepped]
  rw [MultipathConnection.send_filled _ filled]
  let header : MultipathHeaderDSN :=
    { cuid := state.conn.localCyberID, dataSeqNum := state.conn.sendSeqNum,
      dataLen := (getSize payload).toInt32.toUInt32 }
  refine ⟨header, rfl, rfl, ?_, rfl, rfl⟩
  simp only [addedHeaders, List.drop_left, List.filterMap_cons, List.filterMap_nil,
    MultipathConnection.dsnPacket, peekMultipathHeaderDSN_serialize]
  rfl

omit [Fintype Path] in
theorem step_headers {action : Action Path} (stepped : step state action = some next)
    (silent : ∀ payload, action = .send payload → getSize payload = 0) :
    next.headers = state.headers ∧ next.conn.connID = state.conn.connID ∧
      next.conn.sendSeqNum = state.conn.sendSeqNum := by
  cases action with
  | send payload =>
      rw [← Option.some.inj stepped, MultipathConnection.send_empty _ (silent payload rfl)]
      exact ⟨by simp [addedHeaders], rfl, rfl⟩
  | sendData answer =>
      obtain ⟨headers, connID, sendSeqNum, -⟩ := sendData_frame stepped
      exact ⟨headers, connID, sendSeqNum⟩
  | arrive path chunks =>
      simp only [step] at stepped
      split at stepped
      · cases stepped
      · obtain ⟨_, -, result⟩ := Option.bind_eq_some_iff.mp stepped
        rw [← Option.some.inj result]
        exact ⟨rfl, rfl, rfl⟩
  | pathRecvedData path =>
      simp only [step] at stepped
      split at stepped
      · cases stepped
      · obtain ⟨⟨conn, left, notified⟩, handed, result⟩ := Option.bind_eq_some_iff.mp stepped
        have outcome := handedOver handed
        rw [← Option.some.inj result]
        exact ⟨rfl, outcome.connID, outcome.sendSeqNum⟩
  | recv =>
      rw [← Option.some.inj stepped]
      unfold MultipathConnection.recv
      split
      · exact ⟨rfl, rfl, rfl⟩
      · exact ⟨rfl, rfl, rfl⟩

theorem Inv.silent (inv : Inv start state) {action : Action Path}
    (stepped : step state action = some next)
    (silent : ∀ payload, action = .send payload → getSize payload = 0) : Inv start next := by
  obtain ⟨headers, connID, sendSeqNum⟩ := step_headers stepped silent
  constructor
  · rw [headers, connID]
    exact inv.tiled
  · rw [headers]
    exact inv.filled
  · rw [headers]
    exact inv.room
  · rw [headers, connID, sendSeqNum]
    exact inv.next
  · exact step_accounted inv.accounted stepped

theorem Inv.send (inv : Inv start state) {payload : Packet} (filled : getSize payload ≠ 0)
    (fits : Fits state (.send payload)) (stepped : step state (.send payload) = some next) :
    Inv start next := by
  obtain ⟨header, dataSeqNum, dataLen, headers, connID, sendSeqNum⟩ := send_filled filled stepped
  obtain ⟨small, room⟩ := fits filled
  rw [← dataLen] at room
  have position := inv.next.mpr small
  have contiguous : Contiguous state.conn.connID (state.headers ++ [header]) :=
    (contiguous_concat _ _ _).mpr ⟨inv.tiled.contiguous, dataSeqNum.trans position⟩
  have sizes : ∀ other ∈ state.headers ++ [header], other.dataLen.toNat ≠ 0 := by
    intro other member
    rcases List.mem_append.mp member with old | new
    · exact inv.filled other old
    · rw [List.mem_singleton.mp new, dataLen]
      intro zero
      exact filled (UInt32.toNat_inj.mp zero)
  have apart := (disjoint_concat_iff contiguous inv.room sizes).mpr room
  constructor
  · rw [headers, connID]
    refine ⟨contiguous, List.pairwise_append.mpr ⟨inv.tiled.disjoint, List.pairwise_singleton _ _,
      fun first member second new => ?_⟩⟩
    rw [List.mem_singleton.mp new]
    exact apart first member
  · rw [headers]
    exact sizes
  · rw [headers, totalLen_concat]
    exact room
  · rw [headers, connID, sendSeqNum, totalLen_concat, position, UInt64.ofNat_add,
      ← UInt64.add_assoc, ← toUInt64_eq_ofNat, add_right_inj, signed_size_iff]
    constructor
    · intro last other member
      rcases List.mem_append.mp member with old | new
      · exact small other old
      · rw [List.mem_singleton.mp new]
        exact last
    · intro all
      exact all header (by simp)
  · exact step_accounted inv.accounted stepped

theorem step_inv (inv : Inv start state) {action : Action Path} (fits : Fits state action)
    (stepped : step state action = some next) : Inv start next := by
  by_cases silent : ∀ payload, action = .send payload → getSize payload = 0
  · exact inv.silent stepped silent
  · obtain ⟨payload, rfl, filled⟩ : ∃ payload, action = .send payload ∧ getSize payload ≠ 0 := by
      simpa using silent
    exact inv.send filled fits stepped

/-- A header that tiles the numbers with the others was sent at their end and found room. -/
theorem fits_of_tiled (inv : Inv start state) {action : Action Path}
    (stepped : step state action = some next)
    (tiled : Tiled next.conn.connID next.headers) : Fits state action := by
  cases action with
  | send payload =>
      intro filled
      obtain ⟨header, dataSeqNum, dataLen, headers, connID, -⟩ := send_filled filled stepped
      rw [headers, connID] at tiled
      have contiguous := tiled.contiguous
      obtain ⟨-, placed⟩ := (contiguous_concat _ _ _).mp contiguous
      refine ⟨inv.next.mp (dataSeqNum.symm.trans placed), ?_⟩
      rw [← dataLen]
      apply (disjoint_concat_iff contiguous inv.room ?_).mp
      · intro other member
        exact (List.pairwise_append.mp tiled.disjoint).2.2 other member header (by simp)
      · intro other member
        rcases List.mem_append.mp member with old | new
        · exact inv.filled other old
        · rw [List.mem_singleton.mp new, dataLen]
          intro zero
          exact filled (UInt32.toNat_inj.mp zero)
  | sendData answer => trivial
  | arrive path chunks => trivial
  | pathRecvedData path => trivial
  | recv => trivial

/-- In every state of a run the headers tile the numbers and the counters agree, exactly if every
packet of the run is sent within the numbers of 64 bits and behind none that overflows an
`int32_t`. -/
theorem tiled_and_accounted_iff (start : State Path) (established : Established start)
    (actions : List (Action Path)) (ran : (run step start actions).isSome) :
    Throughout step
        (fun state => Tiled state.conn.connID state.headers ∧ Accounted start state) start actions ↔
      Guarded step Fits start actions :=
  throughout_iff_guarded_of (fun _ inv => ⟨inv.tiled, inv.accounted⟩)
    (fun _ _ _ inv fits stepped => step_inv inv fits stepped)
    (fun _ _ _ inv stepped sound => fits_of_tiled inv stepped sound.1)
    (Inv.initial established) ran

end Counters

def stampedPacket (seqNum : MpDataSeqNum) (payload : Packet) : Packet :=
  let header : MultipathHeaderDSN := { dataSeqNum := seqNum, dataLen := getSize payload }
  header.serialize ++ payload

def established : State Bool where
  conn := { connID := 9, paths := [false, true], sendSeqNum := 9, recvSeqNum := 9 }
  paths := fun _ => { hasSocket := true, pathState := .connected, connID := 9 }

theorem established_start : Established established := ⟨rfl, rfl, fun _ => rfl, rfl⟩

def exchange : List (Action Bool) :=
  [.send [1, 2], .send [3], .sendData fun _ => .accepted,
    .arrive true [stampedPacket 9 [7, 7]], .pathRecvedData true, .recv]

theorem tiled_and_accounted_iff_exchange :
    Throughout step
        (fun state => Tiled state.conn.connID state.headers ∧ Accounted established state)
        established exchange ↔
      Guarded step Fits established exchange :=
  tiled_and_accounted_iff established established_start exchange (by decide +kernel)

def longPayload : Packet := List.replicate (2 ^ 31) 0

theorem getSize_longPayload : getSize longPayload = 2 ^ 31 := by
  rw [getSize, longPayload, List.length_replicate]
  rfl

/-- Behind a packet of 2^31 bytes the numbers go back. -/
theorem longPayload_notTiled :
    ¬ Throughout step
        (fun state => Tiled state.conn.connID state.headers ∧ Accounted established state)
        established [.send longPayload, .send [1]] := by
  intro sound
  have long : getSize longPayload ≠ 0 := by
    rw [getSize_longPayload]
    decide
  obtain ⟨sent, stepped⟩ : ∃ sent, step established (.send longPayload) = some sent := ⟨_, rfl⟩
  obtain ⟨last, steppedAgain⟩ : ∃ last, step sent (.send [1]) = some last := ⟨_, rfl⟩
  have inv : Inv established sent := by
    apply step_inv (Inv.initial established_start) _ stepped
    intro _
    refine ⟨fun header member => absurd member (by simp [established]), ?_⟩
    rw [getSize_longPayload]
    decide
  have ran : run step established [.send longPayload, .send [1]] = some last := by
    rw [run_cons, stepped, Option.bind_some, run_cons, steppedAgain]
    rfl
  have tiled := (sound _ [] last (List.append_nil _).symm ran).1
  obtain ⟨small, -⟩ := fits_of_tiled inv steppedAgain tiled (by decide)
  obtain ⟨header, -, dataLen, headers, -⟩ := send_filled long stepped
  have below := small header (by simp [headers])
  rw [Small, dataLen, getSize_longPayload] at below
  exact absurd below (by decide)

end FISim.Accounting
