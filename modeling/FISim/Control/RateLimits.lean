import FISim.Control.FullDuplexStream
import Mathlib.Data.Rat.Lemmas
import Mathlib.Tactic.Linarith

/-!
The rate limits of a full-duplex stream.  The clock runs between the events, a
time is an exact rational, and whether a pump waits comes from the test that it
makes.
-/

namespace FISim.Control

open Transition

namespace FullDuplexStream

/-- The test `tryThroughput >= m_cloudRateLimit` of both pumps.  The bits are counted in 64 bits;
without any elapsed time the quotient is infinite, or not a number where there are no bits. -/
def overLimit (bytes : UInt64) (pktSize : UInt32) (elapsed limit : ℚ) : Bool :=
  let bits := (bytes + pktSize.toUInt64) * 8
  if elapsed = 0 then bits ≠ 0
  else limit ≤ bits.toNat / elapsed / 1000000

structure Timed where
  stream : FullDuplexStream
  cloudRateLimit : ℚ
  endRateLimit : ℚ
  endStartTime : ℚ
  cloudStartTime : ℚ
  now : ℚ

-- What was sent to the end host, and how it was counted.
structure SameSent (before after : FullDuplexStream) : Prop where
  sends : after.endSends = before.endSends
  bytes : after.sendToEndBytes = before.sendToEndBytes

theorem SameSent.toEnd {before after : FullDuplexStream} (same : SameSent before after) :
    after.toEnd = before.toEnd := by
  unfold FullDuplexStream.toEnd
  rw [same.sends]

theorem receiveEnds_sent {packets : List Packet} {stream after : FullDuplexStream}
    (ran : packets.foldlM receiveEnd stream = some after) : SameSent stream after := by
  induction packets generalizing stream with
  | nil =>
      obtain rfl := Option.some.inj ran
      exact ⟨rfl, rfl⟩
  | cons packet rest ih =>
      rw [List.foldlM_cons] at ran
      obtain ⟨middle, first, later⟩ := Option.bind_eq_some_iff.mp ran
      have kept := ih later
      obtain ⟨header, rest, -, rfl⟩ := receiveEnd_eq first
      rw [receiveCommand_eq] at kept
      exact ⟨kept.sends, kept.bytes⟩

theorem step_sent {stream next : FullDuplexStream} {event : Event}
    (stepped : step stream event = some next)
    (other : ∀ number limited accepted, event ≠ .pumpToEnd number limited accepted) :
    SameSent stream next := by
  cases event with
  | endReceive packets =>
      obtain ⟨middle, taken, result⟩ := Option.bind_eq_some_iff.mp stepped
      have kept := receiveEnds_sent taken
      rw [← Option.some.inj result]
      split
      · exact kept
      · exact ⟨kept.sends, kept.bytes⟩
  | cloudReceive packets =>
      obtain ⟨middle, taken, result⟩ := Option.bind_eq_some_iff.mp stepped
      have kept : SameSent stream middle := by
        rw [receiveClouds_eq taken]
        exact ⟨rfl, rfl⟩
      rw [← Option.some.inj result]
      split
      · exact kept
      · exact ⟨kept.sends, kept.bytes⟩
  | pumpToCloud event limited first second =>
      simp only [step] at stepped
      split at stepped
      · rw [← Option.some.inj stepped, ouputEndBuffer_eq]
        exact ⟨rfl, rfl⟩
      · cases stepped
  | pumpToEnd event limited accepted => exact absurd rfl (other event limited accepted)
  | cloudResolved interfaces =>
      rw [← Option.some.inj stepped]
      unfold duplexStreamCloudConnect
      split
      · exact ⟨rfl, rfl⟩
      · exact ⟨rfl, rfl⟩
  | _ =>
      rw [← Option.some.inj stepped]
      exact ⟨rfl, rfl⟩

theorem ouputCloudBuffer_sent (stream : FullDuplexStream) (conserved : stream.Conserved)
    (limited accepted : Bool) :
    (stream.ouputCloudBuffer limited accepted).toEnd = stream.toEnd ∧
        (stream.ouputCloudBuffer limited accepted).sendToEndBytes = stream.sendToEndBytes ∨
      ∃ packet rest, stream.cloudBuffer = packet :: rest ∧ limited = false ∧ accepted = true ∧
        (stream.ouputCloudBuffer limited accepted).toEnd = stream.toEnd ++ [packet] ∧
        (stream.ouputCloudBuffer limited accepted).sendToEndBytes =
          stream.sendToEndBytes + UInt64.ofInt packet.length := by
  unfold ouputCloudBuffer
  split
  · exact Or.inl ⟨rfl, rfl⟩
  · rename_i packet rest buffer
    split
    · exact Or.inl ⟨rfl, rfl⟩
    · split
      · exact Or.inl ⟨rfl, rfl⟩
      · rename_i passed
        have filled := conserved.filled packet (by rw [buffer]; exact List.mem_cons_self)
        simp only []
        cases accepted with
        | false =>
            rw [if_pos (by simp [sendSize])]
            left
            simp [FullDuplexStream.toEnd, scheduleSendToEnd]
        | true =>
            rw [if_neg (by simp only [sendSize, if_true]; omega)]
            right
            refine ⟨packet, rest, buffer, by simpa using passed, rfl, ?_, rfl⟩
            simp [FullDuplexStream.toEnd, scheduleSendToEnd]

namespace Timed

def activate (hasCloudSocket : Bool) (cloudRateLimit endRateLimit now : ℚ) : Timed where
  stream := FullDuplexStream.activate hasCloudSocket
  cloudRateLimit
  endRateLimit
  endStartTime := now
  cloudStartTime := now
  now

-- `OuputEndBuffer` compares with the limit of the other direction.
def toCloudLimited (timed : Timed) : Bool :=
  match timed.stream.endBuffer with
  | [] => false
  | pkt :: _ => overLimit timed.stream.sendToCloudBytes (getSize pkt)
      (timed.now - timed.endStartTime) timed.cloudRateLimit

def toEndLimited (timed : Timed) : Bool :=
  match timed.stream.cloudBuffer with
  | [] => false
  | pkt :: _ => overLimit timed.stream.sendToEndBytes (getSize pkt)
      (timed.now - timed.cloudStartTime) timed.cloudRateLimit

inductive Action
  | wait (time : ℚ)
  | pumpToCloud (event : ℕ) (first second : Bool)
  | pumpToEnd (event : ℕ) (accepted : Bool)
  | other (event : Event)

def isPump : Event → Bool
  | .pumpToCloud .. => true
  | .pumpToEnd .. => true
  | _ => false

def step (timed : Timed) : Action → Option Timed
  | .wait time => if 0 ≤ time then some { timed with now := timed.now + time } else none
  | .pumpToCloud event first second => do
      let stream ← timed.stream.step (.pumpToCloud event timed.toCloudLimited first second)
      return { timed with stream }
  | .pumpToEnd event accepted => do
      let stream ← timed.stream.step (.pumpToEnd event timed.toEndLimited accepted)
      return { timed with stream }
  | .other event =>
      if isPump event then none
      else do
        let stream ← timed.stream.step event
        return { timed with stream }

def bytes (packets : List Packet) : ℕ := (packets.map List.length).sum

/-- Once something has been sent in a direction, what was really sent in it stays below the limit
of that direction. -/
structure Bounded (timed : Timed) : Prop where
  toEnd : timed.stream.toEnd ≠ [] →
    8 * (bytes timed.stream.toEnd : ℚ) <
      timed.cloudRateLimit * 1000000 * (timed.now - timed.cloudStartTime)
  toCloud : timed.stream.toCloud ≠ [] →
    8 * (bytes timed.stream.toCloud : ℚ) <
      timed.endRateLimit * 1000000 * (timed.now - timed.endStartTime)

/-- The bits that a pump to the end host compares do not overflow. -/
def Fits (timed : Timed) : Action → Prop
  | .pumpToEnd _ accepted => accepted = true → ∀ pkt rest, timed.stream.cloudBuffer = pkt :: rest →
      pkt.length < 2 ^ 32 ∧ 8 * (bytes timed.stream.toEnd + pkt.length) < 2 ^ 64
  | _ => True

/-- What the run keeps: nothing goes to the cloud, and the counter of the other direction is exact. -/
structure Counted (timed : Timed) : Prop where
  idle : timed.stream.Idle
  conserved : timed.stream.Conserved
  exactly : timed.stream.sendToEndBytes.toNat = bytes timed.stream.toEnd
  clock : timed.cloudStartTime ≤ timed.now
  bounded : timed.stream.toEnd ≠ [] →
    8 * (bytes timed.stream.toEnd : ℚ) <
      timed.cloudRateLimit * 1000000 * (timed.now - timed.cloudStartTime)

theorem Counted.isBounded {timed : Timed} (counted : timed.Counted) : timed.Bounded :=
  ⟨counted.bounded, fun sent => absurd counted.idle.sent sent⟩

theorem bytes_concat (packets : List Packet) (packet : Packet) :
    bytes (packets ++ [packet]) = bytes packets + packet.length := by
  simp [bytes]

theorem below_limit {sent : UInt64} {packet : Packet} {elapsed limit : ℚ}
    (passed : overLimit sent (getSize packet) elapsed limit = false) (start : 0 ≤ elapsed)
    (filled : packet.length ≠ 0) (short : packet.length < 2 ^ 32)
    (fits : 8 * (sent.toNat + packet.length) < 2 ^ 64) :
    8 * ((sent.toNat + packet.length : ℕ) : ℚ) < limit * 1000000 * elapsed := by
  have size := getSize_toNat short
  have bits : ((sent + (getSize packet).toUInt64) * 8).toNat =
      8 * (sent.toNat + packet.length) := by
    rw [UInt64.toNat_mul, UInt64.toNat_add, UInt32.toNat_toUInt64, size]
    have eight : (8 : UInt64).toNat = 8 := rfl
    rw [eight]
    omega
  unfold overLimit at passed
  simp only [] at passed
  split at passed
  · have nonzero : (sent + (getSize packet).toUInt64) * 8 ≠ 0 := by
      intro zero
      rw [zero] at bits
      change 0 = _ at bits
      omega
    simp [nonzero] at passed
  · rename_i later
    have positive : 0 < elapsed := lt_of_le_of_ne start (Ne.symm later)
    rw [bits, decide_eq_false_iff_not, not_le, div_div, div_lt_iff₀ (by positivity)] at passed
    push_cast at passed ⊢
    linarith

theorem Counted.other {timed : Timed} {stream : FullDuplexStream} {event : Event}
    (counted : timed.Counted) (stepped : timed.stream.step event = some stream)
    (notEnd : ∀ number limited accepted, event ≠ .pumpToEnd number limited accepted) :
    Counted { timed with stream } := by
  have same := step_sent stepped notEnd
  refine ⟨(counted.idle.step stepped).1, counted.conserved.step stepped, ?_, counted.clock, ?_⟩
  · rw [same.toEnd, same.bytes]
    exact counted.exactly
  · rw [same.toEnd]
    exact counted.bounded

theorem Counted.wait {timed : Timed} {time : ℚ} (counted : timed.Counted) (forward : 0 ≤ time) :
    Counted { timed with now := timed.now + time } := by
  have clock := counted.clock
  refine ⟨counted.idle, counted.conserved, counted.exactly, ?_, fun sent => ?_⟩
  · change timed.cloudStartTime ≤ timed.now + time
    linarith
  · have below := counted.bounded sent
    have positive : 0 ≤ (bytes timed.stream.toEnd : ℚ) := Nat.cast_nonneg _
    change _ < timed.cloudRateLimit * 1000000 * (timed.now + time - timed.cloudStartTime)
    have limit : 0 < timed.cloudRateLimit := by
      by_contra negative
      push Not at negative
      have product : timed.cloudRateLimit * (timed.now - timed.cloudStartTime) ≤ 0 :=
        mul_nonpos_of_nonpos_of_nonneg negative (by linarith)
      linarith
    have more : 0 ≤ timed.cloudRateLimit * time := mul_nonneg limit.le forward
    linarith

theorem Counted.pumpToEnd {timed : Timed} {stream : FullDuplexStream} {event : ℕ} {accepted : Bool}
    (counted : timed.Counted) (fits : timed.Fits (.pumpToEnd event accepted))
    (stepped : timed.stream.step (.pumpToEnd event timed.toEndLimited accepted) = some stream) :
    Counted { timed with stream } := by
  have idle := (counted.idle.step stepped).1
  have conserved := counted.conserved.step stepped
  simp only [FullDuplexStream.step] at stepped
  split at stepped
  · have ran := Option.some.inj stepped
    have before : Conserved { timed.stream with endPumps := timed.stream.endPumps.erase event } :=
      counted.conserved.same ⟨rfl, rfl, rfl, rfl⟩
    rcases ouputCloudBuffer_sent _ before timed.toEndLimited accepted with
      ⟨same, sameBytes⟩ | ⟨packet, rest, buffer, passed, taken, sent, sentBytes⟩
    · rw [ran] at same sameBytes
      refine ⟨idle, conserved, ?_, counted.clock, ?_⟩
      · rw [same, sameBytes]
        exact counted.exactly
      · rw [same]
        exact counted.bounded
    · rw [ran] at sent sentBytes
      obtain ⟨short, room⟩ := fits taken packet rest buffer
      have filled := counted.conserved.filled packet (by
        change timed.stream.cloudBuffer = _ at buffer
        rw [buffer]
        exact List.mem_cons_self)
      change stream.toEnd = timed.stream.toEnd ++ [packet] at sent
      have exactly := counted.exactly
      have total : stream.sendToEndBytes.toNat = bytes timed.stream.toEnd + packet.length := by
        rw [sentBytes]
        change (timed.stream.sendToEndBytes + UInt64.ofInt packet.length).toNat = _
        rw [UInt64.toNat_add, exactly, toNat_ofInt]
        omega
      refine ⟨idle, conserved, ?_, counted.clock, fun _ => ?_⟩
      · rw [sent, bytes_concat]
        exact total
      · rw [sent, bytes_concat, ← exactly]
        apply below_limit _ (by linarith [counted.clock]) filled short (by rw [exactly]; exact room)
        simp only [toEndLimited] at passed
        change timed.stream.cloudBuffer = _ at buffer
        rw [buffer] at passed
        exact passed
  · cases stepped

theorem Counted.step {timed next : Timed} {action : Action} (counted : timed.Counted)
    (fits : timed.Fits action) (stepped : timed.step action = some next) : next.Counted := by
  cases action with
  | wait time =>
      simp only [Timed.step] at stepped
      split at stepped
      · rename_i forward
        obtain rfl := Option.some.inj stepped
        exact counted.wait forward
      · cases stepped
  | pumpToCloud event first second =>
      obtain ⟨stream, ran, result⟩ := Option.bind_eq_some_iff.mp stepped
      obtain rfl := Option.some.inj result
      exact counted.other ran (by simp)
  | pumpToEnd event accepted =>
      obtain ⟨stream, ran, result⟩ := Option.bind_eq_some_iff.mp stepped
      obtain rfl := Option.some.inj result
      exact counted.pumpToEnd fits ran
  | other event =>
      simp only [Timed.step] at stepped
      split at stepped
      · cases stepped
      · rename_i notPump
        obtain ⟨stream, ran, result⟩ := Option.bind_eq_some_iff.mp stepped
        obtain rfl := Option.some.inj result
        apply counted.other ran
        rintro number limited accepted rfl
        exact notPump rfl

def onePacket : List Action :=
  [.wait 1, .other (.cloudReceive [[1, 2, 3]]), .pumpToEnd 0 true]

-- Packets at a distance of ten microseconds, each of which arrives before the pump runs.
def flood (packet : Packet) : ℕ → List Action
  | 0 => [.wait 50000, .other (.cloudReceive [packet])]
  | rounds + 1 => flood packet rounds ++
      [.pumpToEnd rounds true, .wait (1 / 100000), .other (.cloudReceive [packet])]

/-- The stream after so many packets, with the next one waiting for the pump. -/
structure Flooded (packet : Packet) (rounds : ℕ) (timed : Timed) : Prop where
  endStatus : timed.stream.endStatus = .connected
  cloudBuffer : timed.stream.cloudBuffer = [packet]
  endPumps : timed.stream.endPumps = [rounds]
  sendToEndEvent : timed.stream.sendToEndEvent = some rounds
  nextEvent : timed.stream.nextEvent = rounds + 1
  sent : timed.stream.toEnd = List.replicate rounds packet
  limit : timed.cloudRateLimit = 400000000
  elapsed : timed.now - timed.cloudStartTime = 50000 + rounds / 100000

theorem Flooded.passes {packet : Packet} {rounds : ℕ} {timed : Timed}
    (flooded : Flooded packet rounds timed) : timed.toEndLimited = false := by
  have later : (0 : ℚ) ≤ rounds / 100000 := div_nonneg (Nat.cast_nonneg rounds) (by norm_num)
  have positive : (0 : ℚ) < 50000 + rounds / 100000 := by linarith
  unfold toEndLimited overLimit
  simp only [flooded.cloudBuffer, flooded.elapsed, flooded.limit]
  generalize ((timed.stream.sendToEndBytes + (getSize packet).toUInt64) * 8) = bits
  have small : (bits.toNat : ℚ) < 2 ^ 64 := by exact_mod_cast bits.toNat_lt
  rw [if_neg positive.ne', decide_eq_false_iff_not, not_le, div_div,
    div_lt_iff₀ (mul_pos positive (by norm_num))]
  linarith

theorem ouputCloudBuffer_passed {stream : FullDuplexStream} {packet : Packet} {rest : List Packet}
    (buffer : stream.cloudBuffer = packet :: rest) (going : stream.endStatus = .connected)
    (filled : packet.length ≠ 0) :
    stream.ouputCloudBuffer false true = { stream with
      endSends := stream.endSends ++ [(⟨packet, true, stream.stopped⟩ : EndSend)]
      sendToEndBytes := stream.sendToEndBytes + UInt64.ofInt packet.length
      cloudBuffer := rest }.scheduleSendToEnd := by
  have status : stream.endStatus ≠ .endStop := by
    rw [going]
    decide
  have positive : ¬ sendSize true packet ≤ 0 := by
    simp only [sendSize, if_true]
    omega
  unfold ouputCloudBuffer
  simp only [buffer, if_neg status, if_neg positive, Bool.false_eq_true, if_false]
  rfl

theorem Flooded.next {packet : Packet} {rounds : ℕ} {timed : Timed}
    (flooded : Flooded packet rounds timed) (filled : packet.length ≠ 0) :
    ∃ after, run step timed
      [.pumpToEnd rounds true, .wait (1 / 100000), .other (.cloudReceive [packet])] =
        some after ∧ Flooded packet (rounds + 1) after := by
  obtain ⟨pumped, isPumped⟩ : ∃ pumped : FullDuplexStream, pumped =
      { timed.stream with
        endPumps := [rounds + 1], sendToEndEvent := some (rounds + 1), nextEvent := rounds + 2,
        endSends := timed.stream.endSends ++ [(⟨packet, true, timed.stream.stopped⟩ : EndSend)]
        sendToEndBytes := timed.stream.sendToEndBytes + UInt64.ofInt packet.length
        cloudBuffer := [] } := ⟨_, rfl⟩
  have pump : timed.stream.step (.pumpToEnd rounds false true) = some pumped := by
    have passed := @ouputCloudBuffer_passed
      { timed.stream with endPumps := timed.stream.endPumps.erase rounds } packet []
      flooded.cloudBuffer flooded.endStatus filled
    simp only [FullDuplexStream.step, passed]
    simp [scheduleSendToEnd, stopped, flooded.endPumps, flooded.nextEvent, isPumped]
  have first : step timed (.pumpToEnd rounds true) = some { timed with stream := pumped } := by
    simp only [step, flooded.passes, pump]
    rfl
  have arrives : ∃ filledAgain, pumped.step (.cloudReceive [packet]) = some filledAgain ∧
      filledAgain.cloudBuffer = [packet] ∧ filledAgain.endStatus = .connected ∧
      filledAgain.endPumps = [rounds + 1] ∧ filledAgain.sendToEndEvent = some (rounds + 1) ∧
      filledAgain.nextEvent = rounds + 2 ∧ filledAgain.endSends = pumped.endSends := by
    rw [isPumped]
    simp [FullDuplexStream.step, duplexStreamCloudRecvCallback, receiveCloud, filled, isRunning,
      flooded.endStatus]
  obtain ⟨stream, received, cloudBuffer, endStatus, endPumps, sendToEndEvent, nextEvent, sends⟩ :=
    arrives
  refine ⟨{ timed with stream, now := timed.now + 1 / 100000 }, ?_, ?_⟩
  · have waited : (0 : ℚ) ≤ 1 / 100000 := by norm_num
    rw [run_cons, first, Option.bind_some]
    simp only [run_cons, run_nil, Option.bind_some, step, if_pos waited, isPump, received]
    rfl
  · refine ⟨endStatus, cloudBuffer, endPumps, sendToEndEvent, nextEvent, ?_, flooded.limit, ?_⟩
    · have sent := flooded.sent
      simp only [toEnd] at sent ⊢
      rw [sends, isPumped, List.filter_append, List.map_append, sent, List.replicate_succ']
      rfl
    · have elapsed := flooded.elapsed
      push_cast
      linarith

theorem run_flood {packet : Packet} (filled : packet.length ≠ 0) (rounds : ℕ) :
    ∃ last, run step (activate true 400000000 400000000 0) (flood packet rounds) = some last ∧
      Flooded packet rounds last := by
  induction rounds with
  | zero =>
      have waited : (0 : ℚ) ≤ 50000 := by norm_num
      obtain ⟨stream, received, cloudBuffer, endStatus, endPumps, sendToEndEvent, nextEvent, sends⟩ :
          ∃ stream, (FullDuplexStream.activate true).step (.cloudReceive [packet]) = some stream ∧
            stream.cloudBuffer = [packet] ∧ stream.endStatus = .connected ∧
            stream.endPumps = [0] ∧ stream.sendToEndEvent = some 0 ∧ stream.nextEvent = 1 ∧
            stream.endSends = [] := by
        simp [FullDuplexStream.step, duplexStreamCloudRecvCallback, receiveCloud, filled, isRunning,
          FullDuplexStream.activate, scheduleSendToEnd]
      refine ⟨{ activate true 400000000 400000000 0 with stream, now := 0 + 50000 }, ?_, ?_⟩
      · simp only [flood, run_cons, run_nil, Option.bind_some, step, if_pos waited, isPump,
          activate, received]
        rfl
      · refine ⟨endStatus, cloudBuffer, endPumps, sendToEndEvent, nextEvent, ?_, rfl, ?_⟩
        · simp only [toEnd, sends]
          rfl
        · simp [activate]
  | succ rounds ih =>
      obtain ⟨middle, ran, flooded⟩ := ih
      obtain ⟨last, ranOn, next⟩ := flooded.next filled
      exact ⟨last, run_append_some ran ranOn, next⟩

end Timed

end FullDuplexStream

end FISim.Control
