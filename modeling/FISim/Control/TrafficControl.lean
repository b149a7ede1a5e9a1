import FISim.Common
import FISim.Lib.Agenda
import Mathlib.Data.UInt

/-!
Traffic shaping and policing of `Cybertwin`: the tasks, and what performs them.
-/

namespace FISim.Control

open Transition Agenda

-- Times are nanoseconds.
def microsecond : ℕ := 1000
def millisecond : ℕ := 1000 * microsecond

-- Mbps, which are bits in a microsecond.
def trafficShapingLimitThroughput : ℕ := 120
def trafficPolicingLimitThroughput : ℕ := 120

def statisticInterval : ℕ := 10 * millisecond
def trafficPolicingInterval : ℕ := 10 * millisecond
def commModelStatInterval : ℕ := 10 * millisecond
def endHostBulkSendTestTime : ℕ := 500 * millisecond

/-- The argument of `MicroSeconds` is cut off to whole microseconds. -/
def tokenInterval : ℕ := 515 * 8 / trafficShapingLimitThroughput * microsecond

def consumeInterval : ℕ := 10 * microsecond

inductive Task
  | generateToken
  | consumeToken
  | trafficShapingStatistical
  | policingConsumePacket
  | policingStatistical
  deriving DecidableEq, Repr

instance : Fintype Task where
  elems := {.generateToken, .consumeToken, .trafficShapingStatistical, .policingConsumePacket,
    .policingStatistical}
  complete task := by cases task <;> decide

/-- The members that neither the constructor nor the start of the traffic control sets. -/
structure Memory where
  tokenBucket : UInt64 := 0
  consumeBytes : UInt64 := 0
  tpTotalConsumeBytes : UInt64 := 0
  tpTotalDropedBytes : UInt64 := 0
  intervalTpBytes : UInt64 := 0

/-- `due` are the pending events, and `named` tells whether the member for the event of a task names
the one that is pending.  The fields from `tsArrived` on are not the program's: the packets that
came, those that were released and when, those that were policed and whether they were consumed,
the bytes consumed in this interval, and the totals that have been reported. -/
structure TrafficControl where
  now : ℕ
  due : Task → Option ℕ
  named : Task → Bool := fun _ => false
  tokenBucket : UInt64
  consumeBytes : UInt64
  statisticalEnd : Bool := false
  tsPktQueue : List Packet := []
  tpPktQueue : List Packet := []
  startPolicingTime : ℕ
  lastTpStartTime : ℕ
  tpTotalConsumeBytes : UInt64
  tpTotalDropedBytes : UInt64
  intervalTpBytes : UInt64
  tsArrived : List Packet := []
  tpArrived : List Packet := []
  released : List (ℕ × Packet) := []
  policed : List (Packet × Bool) := []
  intervalConsumed : ℕ := 0
  reported : UInt64 := 0

namespace TrafficControl

inductive Event
  | tsArrives (time : ℕ) (pkt : Packet)
  | tpArrives (time : ℕ) (pkt : Packet)
  | statisticalEnds (time : ℕ)
  | fire (task : Task)
  deriving DecidableEq, Repr

/-- `CybertwinCommModelTrafficShaping` and `CybertwinCommModelTrafficPolicing`. -/
def start (memory : Memory) (now : ℕ) : TrafficControl where
  now
  due
    | .generateToken => some now
    | .consumeToken => some now
    | .trafficShapingStatistical => some (now + statisticInterval)
    | .policingConsumePacket => some now
    | .policingStatistical => some now
  tokenBucket := memory.tokenBucket
  consumeBytes := memory.consumeBytes
  startPolicingTime := now
  lastTpStartTime := now
  tpTotalConsumeBytes := memory.tpTotalConsumeBytes
  tpTotalDropedBytes := memory.tpTotalDropedBytes
  intervalTpBytes := memory.intervalTpBytes

variable (control : TrafficControl)

/-- The pending event of the task has come. -/
def begin (task : Task) (time : ℕ) : TrafficControl :=
  { control with now := time, due := Function.update control.due task none }

def schedule (task : Task) (delay : ℕ) : TrafficControl :=
  { control with
    due := Function.update control.due task (some (control.now + delay))
    named := Function.update control.named task true }

def cancel (task : Task) : TrafficControl :=
  if control.named task then { control with due := Function.update control.due task none }
  else control

def generateToken : TrafficControl :=
  { control with tokenBucket := control.tokenBucket + 1 }.schedule .generateToken tokenInterval

def stopTrafficShaping : TrafficControl :=
  ((control.cancel .generateToken).cancel .consumeToken).cancel .trafficShapingStatistical

/-- A packet of the queue for a token of the bucket. -/
def release : TrafficControl :=
  match control.tsPktQueue with
  | [] => control
  | pkt :: rest =>
      if 0 < control.tokenBucket then
        { control with
          tokenBucket := control.tokenBucket - 1
          consumeBytes := control.consumeBytes + (getSize pkt).toUInt64
          tsPktQueue := rest
          released := control.released ++ [(control.now, pkt)] }
      else control

def consumeToken : TrafficControl :=
  if control.statisticalEnd ∧ control.tsPktQueue = [] then control.stopTrafficShaping
  else control.release.schedule .consumeToken consumeInterval

def trafficShapingStatistical : TrafficControl :=
  { control with consumeBytes := 0 }.schedule .trafficShapingStatistical statisticInterval

/-- The test `intervalThroughput < TRAFFIC_POLICING_LIMIT_THROUGHPUT`.  The bits are counted in 64
bits; without any time elapsed the quotient is infinite or not a number. -/
def belowLimit (bytes : UInt64) (pktSize : UInt32) (interval : ℕ) : Bool :=
  0 < interval ∧
    ((bytes + pktSize.toUInt64) * 8).toNat * microsecond < trafficPolicingLimitThroughput * interval

/-- The packet that was taken from the queue is consumed or dropped. -/
def police (pkt : Packet) : TrafficControl :=
  let pktSize := getSize pkt
  if belowLimit control.intervalTpBytes pktSize (control.now - control.lastTpStartTime) then
    { control with
      tpTotalConsumeBytes := control.tpTotalConsumeBytes + pktSize.toUInt64
      intervalTpBytes := control.intervalTpBytes + pktSize.toUInt64
      policed := control.policed ++ [(pkt, true)]
      intervalConsumed := control.intervalConsumed + pktSize.toNat }
  else
    { control with
      tpTotalDropedBytes := control.tpTotalDropedBytes + pktSize.toUInt64
      policed := control.policed ++ [(pkt, false)] }

def intervalOver (time : ℕ) : Prop :=
  trafficPolicingInterval / millisecond ≤ (time - control.lastTpStartTime) / millisecond

instance (time : ℕ) : Decidable (control.intervalOver time) :=
  inferInstanceAs (Decidable (_ ≤ _))

def policingRun : TrafficControl :=
  if control.intervalOver control.now then
    { control with lastTpStartTime := control.now, intervalTpBytes := 0, intervalConsumed := 0 }
  else
    match control.tpPktQueue with
    | [] => control
    | pkt :: rest => { control with tpPktQueue := rest }.police pkt

def ccmTrafficPolicingConsumePacket : TrafficControl :=
  control.policingRun.schedule .policingConsumePacket consumeInterval

def ccmTrafficPolicingStop : TrafficControl :=
  (control.cancel .policingConsumePacket).cancel .policingStatistical

def ccmTrafficPolicingStatistical : TrafficControl :=
  if endHostBulkSendTestTime ≤ control.now - control.startPolicingTime then
    control.ccmTrafficPolicingStop
  else
    { control with
      tpTotalConsumeBytes := 0
      reported := control.reported + control.tpTotalConsumeBytes }.schedule .policingStatistical
        commModelStatInterval

def perform : Task → TrafficControl
  | .generateToken => control.generateToken
  | .consumeToken => control.consumeToken
  | .trafficShapingStatistical => control.trafficShapingStatistical
  | .policingConsumePacket => control.ccmTrafficPolicingConsumePacket
  | .policingStatistical => control.ccmTrafficPolicingStatistical

-- Nothing happens after a pending event is due and before it comes.
def timely (time : ℕ) : Bool := control.now ≤ time ∧ Timely control.due time

def step : Event → Option TrafficControl
  | .tsArrives time pkt =>
      if control.timely time then
        some { control with
          now := time
          tsPktQueue := control.tsPktQueue ++ [pkt]
          tsArrived := control.tsArrived ++ [pkt] }
      else none
  | .tpArrives time pkt =>
      if control.timely time then
        some { control with
          now := time
          tpPktQueue := control.tpPktQueue ++ [pkt]
          tpArrived := control.tpArrived ++ [pkt] }
      else none
  | .statisticalEnds time =>
      if control.timely time then some { control with now := time, statisticalEnd := true }
      else none
  | .fire task =>
      match control.due task with
      | none => none
      | some time =>
          if control.timely time then
            some ((control.begin task time).perform task)
          else none

variable {control} {next : TrafficControl}

theorem begin_self (control : TrafficControl) (task : Task) (time : ℕ) :
    (control.begin task time).due task = none := by
  change Function.update control.due task none task = none
  exact Function.update_self ..

theorem begin_of_ne (control : TrafficControl) (time : ℕ) {task other : Task}
    (different : other ≠ task) : (control.begin task time).due other = control.due other := by
  change Function.update control.due task none other = _
  exact Function.update_of_ne different ..

theorem cancel_eq (control : TrafficControl) (task : Task) :
    control.cancel task = { control with due := (control.cancel task).due } := by
  unfold cancel
  split <;> rfl

theorem cancel_due (control : TrafficControl) (cancelled task : Task) :
    ∀ time ∈ (control.cancel cancelled).due task, time ∈ control.due task := by
  intro time member
  unfold cancel at member
  split at member
  · change time ∈ Function.update control.due cancelled none task at member
    by_cases same : task = cancelled
    · rw [same, Function.update_self] at member
      cases member
    · rwa [Function.update_of_ne same] at member
  · exact member

theorem stopTrafficShaping_eq (control : TrafficControl) :
    control.stopTrafficShaping = { control with due := control.stopTrafficShaping.due } := by
  unfold stopTrafficShaping
  rw [cancel_eq, cancel_eq, cancel_eq]

theorem stopTrafficShaping_due (control : TrafficControl) (task : Task) :
    ∀ time ∈ control.stopTrafficShaping.due task, time ∈ control.due task :=
  fun _ member => cancel_due _ _ _ _ (cancel_due _ _ _ _ (cancel_due _ _ _ _ member))

theorem release_eq (control : TrafficControl) :
    control.release = { control with
      tokenBucket := control.release.tokenBucket
      consumeBytes := control.release.consumeBytes
      tsPktQueue := control.release.tsPktQueue
      released := control.release.released } := by
  unfold release
  split
  · rfl
  · split <;> rfl

theorem police_eq (control : TrafficControl) (pkt : Packet) :
    control.police pkt = { control with
      tpTotalConsumeBytes := (control.police pkt).tpTotalConsumeBytes
      intervalTpBytes := (control.police pkt).intervalTpBytes
      policed := (control.police pkt).policed
      intervalConsumed := (control.police pkt).intervalConsumed
      tpTotalDropedBytes := (control.police pkt).tpTotalDropedBytes } := by
  unfold police
  dsimp only
  split <;> rfl

theorem policingRun_eq (control : TrafficControl) :
    control.policingRun = { control with
      lastTpStartTime := control.policingRun.lastTpStartTime
      tpPktQueue := control.policingRun.tpPktQueue
      tpTotalConsumeBytes := control.policingRun.tpTotalConsumeBytes
      intervalTpBytes := control.policingRun.intervalTpBytes
      policed := control.policingRun.policed
      intervalConsumed := control.policingRun.intervalConsumed
      tpTotalDropedBytes := control.policingRun.tpTotalDropedBytes } := by
  unfold policingRun
  split
  · rfl
  · split
    · rfl
    · rw [police_eq]

theorem done_schedule {before : Task → Option ℕ} {task : Task} {delay : ℕ} (positive : 0 < delay)
    (taken : control.due = Function.update before task none) :
    Done before (control.schedule task delay).due task control.now := by
  change Done before (Function.update control.due task _) task control.now
  rw [taken]
  refine done_update ?_
  rintro moment ⟨⟩
  omega

theorem done_cancel {before : Task → Option ℕ} {task : Task} {time : ℕ}
    (done : Done before control.due task time) (cancelled : Task) :
    Done before (control.cancel cancelled).due task time := by
  unfold cancel
  split
  · exact done.cancel cancelled
  · exact done

theorem done_taken {before : Task → Option ℕ} {task : Task} {time : ℕ}
    (taken : control.due = Function.update before task none) :
    Done before control.due task time := by
  rw [taken, ← Function.update_idem]
  exact done_update (by rintro moment ⟨⟩)

theorem done_perform {before : Task → Option ℕ} {task : Task}
    (taken : control.due = Function.update before task none) :
    Done before (control.perform task).due task control.now := by
  cases task with
  | generateToken => exact done_schedule (by decide) taken
  | consumeToken =>
      change Done before control.consumeToken.due _ _
      unfold consumeToken
      split
      · exact done_cancel (done_cancel (done_cancel (done_taken taken) _) _) _
      · rw [release_eq]
        exact done_schedule (by decide) taken
  | trafficShapingStatistical => exact done_schedule (by decide) taken
  | policingConsumePacket =>
      change Done before control.ccmTrafficPolicingConsumePacket.due _ _
      unfold ccmTrafficPolicingConsumePacket
      rw [policingRun_eq]
      exact done_schedule (by decide) taken
  | policingStatistical =>
      change Done before control.ccmTrafficPolicingStatistical.due _ _
      unfold ccmTrafficPolicingStatistical
      split
      · exact done_cancel (done_cancel (done_taken taken) _) _
      · exact done_schedule (by decide) taken

theorem perform_now (control : TrafficControl) (task : Task) :
    (control.perform task).now = control.now := by
  cases task with
  | generateToken => rfl
  | consumeToken =>
      change control.consumeToken.now = _
      unfold consumeToken stopTrafficShaping
      split
      · rw [cancel_eq, cancel_eq, cancel_eq]
      · rw [release_eq]
        rfl
  | trafficShapingStatistical => rfl
  | policingConsumePacket =>
      change control.policingRun.now = _
      rw [policingRun_eq]
  | policingStatistical =>
      change control.ccmTrafficPolicingStatistical.now = _
      unfold ccmTrafficPolicingStatistical ccmTrafficPolicingStop
      split
      · rw [cancel_eq, cancel_eq]
      · rfl

theorem timely_iff (control : TrafficControl) (time : ℕ) :
    control.timely time = true ↔ control.now ≤ time ∧ Timely control.due time := by
  simp only [timely, decide_eq_true_eq]

theorem fire_cases {task : Task} (fired : control.step (.fire task) = some next) :
    ∃ time, control.due task = some time ∧ control.now ≤ time ∧ Timely control.due time ∧
      next = (control.begin task time).perform task := by
  simp only [step] at fired
  split at fired
  · cases fired
  · rename_i time isDue
    split at fired
    · rename_i onTime
      rw [timely_iff] at onTime
      exact ⟨time, isDue, onTime.1, onTime.2, (Option.some.inj fired).symm⟩
    · cases fired

end TrafficControl

end FISim.Control
