import FISim.Control.TrafficControl

/-!
The limits of the traffic control: a token bucket that lets packets through, and a
bound on what is let through in an interval.
-/

namespace FISim.Control

open Transition Agenda

namespace TrafficControl

variable (control : TrafficControl)

def window (opens length : ℕ) : List (ℕ × Packet) :=
  control.released.filter fun release => opens ≤ release.1 ∧ release.1 ≤ opens + length

def bytesOf (packets : List Packet) : UInt64 := (packets.map fun pkt => (getSize pkt).toUInt64).sum

/-- For packets that were policed, those that were consumed or those that were dropped. -/
def judged (consumed : Bool) : List Packet :=
  (control.policed.filter fun entry => entry.2 = consumed).map Prod.fst

/-- For a burst of the given number of packets.  The intervals of the window and of the limit are
multiplied out. -/
structure Limits (memory : Memory) (burst : ℕ) : Prop where
  shaped : ∀ opens length,
    (control.window opens length).length * tokenInterval ≤ length + burst * tokenInterval
  inOrder : control.released.map Prod.snd ++ control.tsPktQueue = control.tsArrived
  policed : 0 < control.intervalConsumed → control.intervalConsumed * 8 * microsecond <
    trafficPolicingLimitThroughput * (control.now - control.lastTpStartTime)
  dequeued : control.policed.map Prod.fst ++ control.tpPktQueue = control.tpArrived
  consumed : control.tpTotalConsumeBytes + control.reported =
    memory.tpTotalConsumeBytes + bytesOf (control.judged true)
  droped : control.tpTotalDropedBytes = memory.tpTotalDropedBytes + bytesOf (control.judged false)

/-- A packet is released while the bucket holds `cap` tokens at most, and the bits of a packet that
is policed are added to those of the interval without a carry. -/
def Capped (cap : ℕ) : Event → Prop
  | .fire .consumeToken => control.tsPktQueue ≠ [] → control.tokenBucket.toNat ≤ cap
  | .fire .policingConsumePacket =>
      ∀ time ∈ control.due .policingConsumePacket, ¬ control.intervalOver time →
        ∀ pkt ∈ control.tpPktQueue.head?,
          (control.intervalTpBytes * 8).toNat + (getSize pkt).toNat * 8 < 2 ^ 64
  | _ => True

instance (cap : ℕ) (event : Event) : Decidable (control.Capped cap event) := by
  cases event with
  | fire task => cases task <;> unfold Capped <;> infer_instance
  | _ => unfold Capped; infer_instance

def since (opens : ℕ) : ℕ := (control.released.filter fun release => opens ≤ release.1).length

/-- With the next token due at `next`: what was released from a moment on and what can still be
released has come out of `cap` tokens and those that were generated since. -/
structure Stocked (cap next : ℕ) : Prop where
  soon : next ≤ control.now + tokenInterval
  stock : ∀ opens, control.since opens = 0 ∨
    (control.since opens + control.tokenBucket.toNat) * tokenInterval + opens ≤
      cap * tokenInterval + next

structure Shaped (cap : ℕ) : Prop where
  past : ∀ release ∈ control.released, release.1 ≤ control.now
  tokens : ∀ next ∈ control.due .generateToken, control.Stocked cap next
  consumer : (control.due .consumeToken).isSome → (control.due .generateToken).isSome
  shaped : ∀ opens length,
    (control.window opens length).length * tokenInterval ≤ length + (cap + 1) * tokenInterval
  inOrder : control.released.map Prod.snd ++ control.tsPktQueue = control.tsArrived

structure Policed (memory : Memory) : Prop where
  started : control.lastTpStartTime ≤ control.now
  bits : control.intervalConsumed * 8 ≤ (control.intervalTpBytes * 8).toNat
  policed : 0 < control.intervalConsumed → control.intervalConsumed * 8 * microsecond <
    trafficPolicingLimitThroughput * (control.now - control.lastTpStartTime)
  dequeued : control.policed.map Prod.fst ++ control.tpPktQueue = control.tpArrived
  consumed : control.tpTotalConsumeBytes + control.reported =
    memory.tpTotalConsumeBytes + bytesOf (control.judged true)
  droped : control.tpTotalDropedBytes = memory.tpTotalDropedBytes + bytesOf (control.judged false)

structure Kept (memory : Memory) (cap : ℕ) : Prop where
  timely : Timely control.due control.now
  shaper : control.Shaped cap
  policer : control.Policed memory

variable {control} {next : TrafficControl} {memory : Memory} {cap : ℕ}

theorem Kept.limits (kept : control.Kept memory cap) : control.Limits memory (cap + 1) :=
  ⟨kept.shaper.shaped, kept.shaper.inOrder, kept.policer.policed, kept.policer.dequeued,
    kept.policer.consumed, kept.policer.droped⟩

theorem Stocked.later {cap moment : ℕ} (stocked : control.Stocked cap moment)
    (bucket : next.tokenBucket = control.tokenBucket) (released : next.released = control.released)
    (later : control.now ≤ next.now) : next.Stocked cap moment := by
  refine ⟨Nat.le_trans stocked.soon (Nat.add_le_add_right later _), ?_⟩
  unfold since
  rw [bucket, released]
  exact stocked.stock

theorem Shaped.calm (shaper : control.Shaped cap) (later : control.now ≤ next.now)
    (tokens : ∀ moment ∈ next.due .generateToken, moment ∈ control.due .generateToken)
    (consumer : (next.due .consumeToken).isSome → (next.due .generateToken).isSome)
    (bucket : next.tokenBucket = control.tokenBucket)
    (released : next.released = control.released)
    (inOrder : next.released.map Prod.snd ++ next.tsPktQueue = next.tsArrived) :
    next.Shaped cap := by
  refine ⟨?_, ?_, consumer, ?_, inOrder⟩
  · rw [released]
    exact fun release member => Nat.le_trans (shaper.past release member) later
  · exact fun moment isDue =>
      (shaper.tokens moment (tokens moment isDue)).later bucket released later
  · unfold window
    rw [released]
    exact shaper.shaped

structure SamePolicer (before after : TrafficControl) : Prop where
  start : after.lastTpStartTime = before.lastTpStartTime
  interval : after.intervalTpBytes = before.intervalTpBytes
  taken : after.intervalConsumed = before.intervalConsumed
  queue : after.tpPktQueue = before.tpPktQueue
  arrived : after.tpArrived = before.tpArrived
  policed : after.policed = before.policed
  total : after.tpTotalConsumeBytes + after.reported = before.tpTotalConsumeBytes + before.reported
  droped : after.tpTotalDropedBytes = before.tpTotalDropedBytes

theorem Policed.later (policer : control.Policed memory) (same : SamePolicer control next)
    (later : control.now ≤ next.now) : next.Policed memory := by
  refine ⟨?_, ?_, ?_, ?_, ?_, ?_⟩
  · rw [same.start]
    exact Nat.le_trans policer.started later
  · rw [same.taken, same.interval]
    exact policer.bits
  · rw [same.taken, same.start]
    intro some_
    refine Nat.lt_of_lt_of_le (policer.policed some_) (Nat.mul_le_mul_left _ ?_)
    exact Nat.sub_le_sub_right later _
  · rw [same.policed, same.queue, same.arrived]
    exact policer.dequeued
  · unfold judged
    rw [same.total, same.policed]
    exact policer.consumed
  · unfold judged
    rw [same.droped, same.policed]
    exact policer.droped

theorem Shaped.generateToken (shaper : control.Shaped cap) {time : ℕ}
    (isDue : control.due .generateToken = some time) (later : control.now ≤ time) :
    (control.begin .generateToken time).generateToken.Shaped cap := by
  obtain ⟨soon, stock⟩ := shaper.tokens time isDue
  refine ⟨?_, ?_, fun _ => rfl, shaper.shaped, shaper.inOrder⟩
  · exact fun release member => Nat.le_trans (shaper.past release member) later
  · rintro _ ⟨⟩
    refine ⟨Nat.le_refl _, fun opens => ?_⟩
    rcases stock opens with none_ | stocked
    · exact Or.inl none_
    · right
      change (control.since opens + (control.tokenBucket + 1).toNat) * tokenInterval + opens ≤
        cap * tokenInterval + (time + tokenInterval)
      have grown : (control.tokenBucket + 1).toNat ≤ control.tokenBucket.toNat + 1 := by
        rw [UInt64.toNat_add]
        exact Nat.mod_le _ _
      have most : (control.since opens + (control.tokenBucket + 1).toNat) * tokenInterval ≤
          (control.since opens + control.tokenBucket.toNat) * tokenInterval + tokenInterval := by
        rw [← Nat.succ_mul]
        exact Nat.mul_le_mul_right _ (by omega)
      omega

theorem since_append (released : List (ℕ × Packet)) (time opens : ℕ) (pkt : Packet) :
    ((released ++ [(time, pkt)]).filter fun release => opens ≤ release.1).length =
      (released.filter fun release => opens ≤ release.1).length + if opens ≤ time then 1 else 0 := by
  rw [List.filter_append, List.length_append]
  by_cases inside : opens ≤ time
  · simp [inside]
  · simp [inside]

theorem since_eq_zero {released : List (ℕ × Packet)} {time opens : ℕ}
    (past : ∀ release ∈ released, release.1 ≤ time) (late : time < opens) :
    (released.filter fun release => opens ≤ release.1).length = 0 := by
  rw [List.length_eq_zero_iff, List.filter_eq_nil_iff]
  intro release member
  have early := past release member
  simp only [decide_eq_true_eq]
  omega

/-- A window that is still open has let through all that was released since it was opened. -/
theorem window_eq_since {time opens length : ℕ}
    (past : ∀ release ∈ control.released, release.1 ≤ time) (inside : time ≤ opens + length) :
    (control.window opens length).length = control.since opens := by
  unfold window since
  congr 1
  refine List.filter_congr fun release member => ?_
  have early := past release member
  simp only [decide_eq_decide, and_iff_left_iff_imp]
  omega

/-- A packet is released for a token while the bucket holds `cap` tokens at most. -/
structure Releases (control next : TrafficControl) (cap : ℕ) (pkt : Packet) : Prop where
  later : control.now ≤ next.now
  past : ∀ release ∈ control.released, release.1 ≤ next.now
  token : control.tokenBucket.toNat = next.tokenBucket.toNat + 1
  capped : control.tokenBucket.toNat ≤ cap
  released : next.released = control.released ++ [(next.now, pkt)]

theorem Stocked.release {token : ℕ} {pkt : Packet} (stocked : control.Stocked cap token)
    (releases : Releases control next cap pkt) (before : next.now ≤ token) :
    next.Stocked cap token := by
  have taken := releases.token
  refine ⟨Nat.le_trans stocked.soon (Nat.add_le_add_right releases.later _), fun opens => ?_⟩
  rw [since, releases.released, since_append]
  by_cases inside : opens ≤ next.now
  · right
    rw [if_pos inside]
    change (control.since opens + 1 + next.tokenBucket.toNat) * tokenInterval + opens ≤ _
    have balance : control.since opens + 1 + next.tokenBucket.toNat =
        control.since opens + control.tokenBucket.toNat := by omega
    rw [balance]
    rcases stocked.stock opens with none_ | kept
    · have bound := Nat.mul_le_mul_right tokenInterval releases.capped
      rw [none_, Nat.zero_add]
      omega
    · exact kept
  · left
    rw [if_neg inside, since_eq_zero releases.past (Nat.not_le.mp inside)]

theorem Stocked.window {token : ℕ} {pkt : Packet} (stocked : control.Stocked cap token)
    (releases : Releases control next cap pkt)
    (shaped : ∀ opens length,
      (control.window opens length).length * tokenInterval ≤ length + (cap + 1) * tokenInterval)
    (opens length : ℕ) :
    (next.window opens length).length * tokenInterval ≤ length + (cap + 1) * tokenInterval := by
  have split : (next.window opens length).length = (control.window opens length).length +
      if opens ≤ next.now ∧ next.now ≤ opens + length then 1 else 0 := by
    rw [TrafficControl.window, releases.released, List.filter_append, List.length_append]
    by_cases inside : opens ≤ next.now ∧ next.now ≤ opens + length
    · simp [inside, TrafficControl.window]
    · simp only [List.filter_cons, List.filter_nil, decide_eq_true_eq, if_neg inside]
      rfl
  rw [split]
  by_cases inside : opens ≤ next.now ∧ next.now ≤ opens + length
  · rw [if_pos inside, window_eq_since releases.past inside.2]
    have soon := stocked.soon
    have later := releases.later
    have taken := releases.token
    rw [Nat.add_mul cap 1 tokenInterval]
    rcases stocked.stock opens with none_ | kept
    · rw [none_]
      omega
    · have more : (control.since opens + 1) * tokenInterval ≤
          (control.since opens + control.tokenBucket.toNat) * tokenInterval :=
        Nat.mul_le_mul_right _ (by omega)
      omega
  · rw [if_neg inside]
    exact shaped opens length

theorem Shaped.release (shaper : control.Shaped cap) {token : ℕ}
    (isDue : control.due .generateToken = some token) (before : control.now ≤ token)
    (capped : control.tsPktQueue ≠ [] → control.tokenBucket.toNat ≤ cap) :
    control.release.Shaped cap := by
  unfold TrafficControl.release
  split
  · exact shaper
  · rename_i pkt rest filled
    split
    · rename_i positive
      have stocked := shaper.tokens token isDue
      have some_ := UInt64.lt_iff_toNat_lt.mp positive
      have taken : (control.tokenBucket - 1).toNat = control.tokenBucket.toNat - 1 :=
        UInt64.toNat_sub_of_le _ _ (UInt64.le_iff_toNat_le.mpr some_)
      rw [UInt64.toNat_zero] at some_
      have releases : Releases control
          { control with
            tokenBucket := control.tokenBucket - 1
            consumeBytes := control.consumeBytes + (getSize pkt).toUInt64
            tsPktQueue := rest
            released := control.released ++ [(control.now, pkt)] } cap pkt := by
        refine ⟨Nat.le_refl _, shaper.past, ?_, capped (filled ▸ List.cons_ne_nil _ _), rfl⟩
        change control.tokenBucket.toNat = (control.tokenBucket - 1).toNat + 1
        omega
      refine ⟨?_, ?_, shaper.consumer, stocked.window releases shaper.shaped, ?_⟩
      · intro release member
        rcases List.mem_append.mp member with old | new
        · exact shaper.past release old
        · rw [List.mem_singleton.mp new]
      · intro next isNext
        obtain rfl := Option.some.inj (isDue.symm.trans isNext)
        exact stocked.release releases before
      · change (control.released ++ [(control.now, pkt)]).map Prod.snd ++ rest = _
        rw [List.map_append, List.append_assoc]
        change control.released.map Prod.snd ++ (pkt :: rest) = _
        rw [← filled]
        exact shaper.inOrder
    · exact shaper

theorem Shaped.schedule (shaper : control.Shaped cap) {task : Task} {delay : ℕ}
    (other : task ≠ .generateToken) (running : (control.due .generateToken).isSome) :
    (control.schedule task delay).Shaped cap := by
  have same : (control.schedule task delay).due .generateToken = control.due .generateToken :=
    Function.update_of_ne other.symm _ _
  refine shaper.calm (Nat.le_refl _) ?_ ?_ rfl rfl shaper.inOrder
  · rw [same]
    exact fun _ member => member
  · rw [same]
    exact fun _ => running

theorem Shaped.stop (shaper : control.Shaped cap) (fired : control.due .consumeToken = none) :
    control.stopTrafficShaping.Shaped cap := by
  rw [stopTrafficShaping_eq]
  refine shaper.calm (Nat.le_refl _) (stopTrafficShaping_due _ _) ?_ rfl rfl shaper.inOrder
  intro running
  obtain ⟨time, isDue⟩ := Option.isSome_iff_exists.mp running
  have still := stopTrafficShaping_due control .consumeToken time isDue
  rw [fired] at still
  cases still

theorem Shaped.begin (shaper : control.Shaped cap) {task : Task} {time : ℕ}
    (other : task ≠ .generateToken) (later : control.now ≤ time) :
    (control.begin task time).Shaped cap := by
  have same := control.begin_of_ne time other.symm
  refine shaper.calm later ?_ ?_ rfl rfl shaper.inOrder
  · rw [same]
    exact fun _ member => member
  · rw [same]
    intro running
    refine shaper.consumer ?_
    by_cases consumes : Task.consumeToken = task
    · rw [consumes, begin_self] at running
      cases running
    · rwa [begin_of_ne _ _ consumes] at running

theorem Shaped.consumeToken (shaper : control.Shaped cap) {time : ℕ}
    (isDue : control.due .consumeToken = some time) (later : control.now ≤ time)
    (first : Timely control.due time)
    (capped : control.tsPktQueue ≠ [] → control.tokenBucket.toNat ≤ cap) :
    (control.begin .consumeToken time).consumeToken.Shaped cap := by
  have begun : (control.begin .consumeToken time).Shaped cap := shaper.begin (by decide) later
  have tokens : (control.begin .consumeToken time).due .generateToken =
      control.due .generateToken := control.begin_of_ne time (by decide)
  obtain ⟨token, generates⟩ := Option.isSome_iff_exists.mp (shaper.consumer (by rw [isDue]; rfl))
  unfold TrafficControl.consumeToken
  split
  · exact begun.stop (control.begin_self _ time)
  · have released := begun.release (tokens.trans generates) (first _ token generates) capped
    refine released.schedule (by decide) ?_
    rw [release_eq]
    change ((control.begin .consumeToken time).due .generateToken).isSome
    rw [tokens, generates]
    rfl

theorem bytesOf_append_singleton (packets : List Packet) (pkt : Packet) :
    bytesOf (packets ++ [pkt]) = bytesOf packets + (getSize pkt).toUInt64 := by
  simp [bytesOf]

theorem judged_append (before : List (Packet × Bool)) (pkt : Packet) (verdict consumed : Bool) :
    ((before ++ [(pkt, verdict)]).filter fun entry => entry.2 = consumed).map Prod.fst =
      (before.filter fun entry => entry.2 = consumed).map Prod.fst ++
        if verdict = consumed then [pkt] else [] := by
  rw [List.filter_append, List.map_append]
  congr 1
  by_cases same : verdict = consumed
  · simp [same]
  · simp [same]

theorem bits_add {bytes : UInt64} {size : UInt32}
    (carryless : (bytes * 8).toNat + size.toNat * 8 < 2 ^ 64) :
    ((bytes + size.toUInt64) * 8).toNat = (bytes * 8).toNat + size.toNat * 8 := by
  have small := size.toNat_lt
  have bits : (size.toUInt64 * 8).toNat = size.toNat * 8 := by
    rw [UInt64.toNat_mul, UInt32.toNat_toUInt64]
    exact Nat.mod_eq_of_lt (by change size.toNat * 8 < 2 ^ 64; omega)
  rw [UInt64.add_mul, UInt64.toNat_add, bits, Nat.mod_eq_of_lt carryless]

theorem Policed.police (policer : control.Policed memory) {pkt : Packet} {rest : List Packet}
    (filled : control.tpPktQueue = pkt :: rest)
    (carryless : (control.intervalTpBytes * 8).toNat + (getSize pkt).toNat * 8 < 2 ^ 64) :
    ({ control with tpPktQueue := rest }.police pkt).Policed memory := by
  have dequeued : ∀ verdict, (control.policed ++ [(pkt, verdict)]).map Prod.fst ++ rest =
      control.tpArrived := by
    intro verdict
    rw [List.map_append, List.append_assoc]
    change control.policed.map Prod.fst ++ (pkt :: rest) = _
    rw [← filled]
    exact policer.dequeued
  have bits := bits_add carryless
  have before := policer.bits
  unfold TrafficControl.police
  dsimp only
  split
  · rename_i below
    simp only [belowLimit, decide_eq_true_eq] at below
    have limited := below.2
    rw [bits] at limited
    refine ⟨policer.started, ?_, fun _ => ?_, dequeued true, ?_, ?_⟩
    · change (control.intervalConsumed + (getSize pkt).toNat) * 8 ≤
        ((control.intervalTpBytes + (getSize pkt).toUInt64) * 8).toNat
      rw [bits]
      omega
    · change (control.intervalConsumed + (getSize pkt).toNat) * 8 * microsecond < _
      refine Nat.lt_of_le_of_lt (Nat.mul_le_mul_right _ ?_) limited
      omega
    · unfold judged
      dsimp only
      rw [judged_append, if_pos rfl, bytesOf_append_singleton, ← UInt64.add_assoc]
      change _ = memory.tpTotalConsumeBytes + bytesOf (control.judged true) + _
      rw [← policer.consumed, UInt64.add_assoc, UInt64.add_comm (getSize pkt).toUInt64,
        ← UInt64.add_assoc]
    · unfold judged
      dsimp only
      rw [judged_append, if_neg (by decide), List.append_nil]
      exact policer.droped
  · refine ⟨policer.started, before, policer.policed, dequeued false, ?_, ?_⟩
    · unfold judged
      dsimp only
      rw [judged_append, if_neg (by decide), List.append_nil]
      exact policer.consumed
    · unfold judged
      dsimp only
      rw [judged_append, if_pos rfl, bytesOf_append_singleton, ← UInt64.add_assoc]
      change _ = memory.tpTotalDropedBytes + bytesOf (control.judged false) + _
      rw [← policer.droped]

theorem Policed.policingRun (policer : control.Policed memory)
    (carryless : ¬ control.intervalOver control.now → ∀ pkt ∈ control.tpPktQueue.head?,
      (control.intervalTpBytes * 8).toNat + (getSize pkt).toNat * 8 < 2 ^ 64) :
    control.policingRun.Policed memory := by
  unfold TrafficControl.policingRun
  split
  · refine ⟨Nat.le_refl _, Nat.zero_le _, ?_, policer.dequeued, policer.consumed, policer.droped⟩
    rintro ⟨⟩
  · rename_i running
    split
    · exact policer
    · rename_i pkt rest filled
      exact policer.police filled (carryless running pkt (by rw [filled]; rfl))

theorem samePolicer_perform {task : Task} (other : task ≠ .policingConsumePacket) :
    SamePolicer control (control.perform task) := by
  cases task with
  | generateToken => exact ⟨rfl, rfl, rfl, rfl, rfl, rfl, rfl, rfl⟩
  | consumeToken =>
      change SamePolicer control control.consumeToken
      unfold consumeToken
      split
      · rw [stopTrafficShaping_eq]
        exact ⟨rfl, rfl, rfl, rfl, rfl, rfl, rfl, rfl⟩
      · rw [release_eq]
        exact ⟨rfl, rfl, rfl, rfl, rfl, rfl, rfl, rfl⟩
  | trafficShapingStatistical => exact ⟨rfl, rfl, rfl, rfl, rfl, rfl, rfl, rfl⟩
  | policingConsumePacket => exact absurd rfl other
  | policingStatistical =>
      change SamePolicer control control.ccmTrafficPolicingStatistical
      unfold ccmTrafficPolicingStatistical ccmTrafficPolicingStop
      split
      · rw [cancel_eq, cancel_eq]
        exact ⟨rfl, rfl, rfl, rfl, rfl, rfl, rfl, rfl⟩
      · refine ⟨rfl, rfl, rfl, rfl, rfl, rfl, ?_, rfl⟩
        change 0 + (control.reported + control.tpTotalConsumeBytes) = _
        rw [UInt64.zero_add, UInt64.add_comm]

structure SameShaper (before after : TrafficControl) : Prop where
  bucket : after.tokenBucket = before.tokenBucket
  queue : after.tsPktQueue = before.tsPktQueue
  arrived : after.tsArrived = before.tsArrived
  released : after.released = before.released
  ends : after.statisticalEnd = before.statisticalEnd
  tokens : after.due .generateToken = before.due .generateToken
  consumer : after.due .consumeToken = before.due .consumeToken

theorem schedule_of_ne (control : TrafficControl) (delay : ℕ) {task other : Task}
    (different : other ≠ task) : (control.schedule task delay).due other = control.due other := by
  change Function.update control.due task _ other = _
  exact Function.update_of_ne different ..

theorem cancel_of_ne (control : TrafficControl) {task other : Task} (different : other ≠ task) :
    (control.cancel task).due other = control.due other := by
  unfold cancel
  split
  · exact Function.update_of_ne different ..
  · rfl

theorem sameShaper_perform {task : Task} (tokens : task ≠ .generateToken)
    (consumes : task ≠ .consumeToken) : SameShaper control (control.perform task) := by
  cases task with
  | generateToken => exact absurd rfl tokens
  | consumeToken => exact absurd rfl consumes
  | trafficShapingStatistical =>
      exact ⟨rfl, rfl, rfl, rfl, rfl, schedule_of_ne _ _ (by decide), schedule_of_ne _ _ (by decide)⟩
  | policingConsumePacket =>
      change SameShaper control control.ccmTrafficPolicingConsumePacket
      unfold ccmTrafficPolicingConsumePacket
      rw [policingRun_eq]
      exact ⟨rfl, rfl, rfl, rfl, rfl, schedule_of_ne _ _ (by decide), schedule_of_ne _ _ (by decide)⟩
  | policingStatistical =>
      change SameShaper control control.ccmTrafficPolicingStatistical
      unfold ccmTrafficPolicingStatistical ccmTrafficPolicingStop
      split
      · have kept : ∀ other, other ≠ Task.policingConsumePacket → other ≠ Task.policingStatistical →
            ((control.cancel .policingConsumePacket).cancel .policingStatistical).due other =
              control.due other := by
          intro other first second
          rw [cancel_of_ne _ second, cancel_of_ne _ first]
        have tokens := kept .generateToken (by decide) (by decide)
        have consumer := kept .consumeToken (by decide) (by decide)
        rw [cancel_eq, cancel_eq] at *
        exact ⟨rfl, rfl, rfl, rfl, rfl, tokens, consumer⟩
      · exact ⟨rfl, rfl, rfl, rfl, rfl, schedule_of_ne _ _ (by decide),
          schedule_of_ne _ _ (by decide)⟩

theorem Shaped.same (shaper : control.Shaped cap) (same : SameShaper control next)
    (later : control.now ≤ next.now) : next.Shaped cap := by
  refine shaper.calm later ?_ ?_ same.bucket same.released ?_
  · rw [same.tokens]
    exact fun _ member => member
  · rw [same.tokens, same.consumer]
    exact shaper.consumer
  · rw [same.released, same.queue, same.arrived]
    exact shaper.inOrder

theorem Kept.fire {task : Task} (kept : control.Kept memory cap)
    (capped : control.Capped cap (.fire task)) (fired : control.step (.fire task) = some next) :
    next.Kept memory cap := by
  obtain ⟨time, isDue, later, first, rfl⟩ := fire_cases fired
  have now := perform_now (control.begin task time) task
  have done : Done control.due ((control.begin task time).perform task).due task time :=
    done_perform rfl
  have after : control.now ≤ ((control.begin task time).perform task).now := by
    rw [now]
    exact later
  have policer : (control.begin task time).Policed memory :=
    kept.policer.later ⟨rfl, rfl, rfl, rfl, rfl, rfl, rfl, rfl⟩ later
  refine ⟨?_, ?_, ?_⟩
  · rw [now]
    exact done.timely first
  · by_cases tokens : task = .generateToken
    · subst tokens
      exact kept.shaper.generateToken isDue later
    · by_cases consumes : task = .consumeToken
      · subst consumes
        exact kept.shaper.consumeToken isDue later first capped
      · exact (kept.shaper.begin tokens later).same (sameShaper_perform tokens consumes)
          (Nat.le_of_eq now.symm)
  · by_cases polices : task = .policingConsumePacket
    · subst polices
      have ran : (control.begin .policingConsumePacket time).policingRun.Policed memory :=
        policer.policingRun (capped time isDue)
      exact ran.later ⟨rfl, rfl, rfl, rfl, rfl, rfl, rfl, rfl⟩ (Nat.le_refl _)
    · exact policer.later (samePolicer_perform polices) (Nat.le_of_eq now.symm)

theorem Kept.step {event : Event} (kept : control.Kept memory cap)
    (capped : control.Capped cap event) (stepped : control.step event = some next) :
    next.Kept memory cap := by
  cases event with
  | fire task => exact kept.fire capped stepped
  | tsArrives time pkt =>
      simp only [TrafficControl.step, timely_iff] at stepped
      split at stepped
      · rename_i onTime
        obtain rfl := Option.some.inj stepped
        refine ⟨onTime.2, kept.shaper.calm onTime.1 (fun _ member => member) kept.shaper.consumer rfl
          rfl ?_, kept.policer.later ⟨rfl, rfl, rfl, rfl, rfl, rfl, rfl, rfl⟩ onTime.1⟩
        change _ ++ (control.tsPktQueue ++ [pkt]) = control.tsArrived ++ [pkt]
        rw [← List.append_assoc, kept.shaper.inOrder]
      · cases stepped
  | tpArrives time pkt =>
      simp only [TrafficControl.step, timely_iff] at stepped
      split at stepped
      · rename_i onTime
        obtain rfl := Option.some.inj stepped
        have policer : Policed { control with now := time } memory :=
          kept.policer.later ⟨rfl, rfl, rfl, rfl, rfl, rfl, rfl, rfl⟩ onTime.1
        refine ⟨onTime.2, kept.shaper.same ⟨rfl, rfl, rfl, rfl, rfl, rfl, rfl⟩ onTime.1,
          policer.started, policer.bits, policer.policed, ?_, policer.consumed, policer.droped⟩
        change _ ++ (control.tpPktQueue ++ [pkt]) = control.tpArrived ++ [pkt]
        rw [← List.append_assoc, kept.policer.dequeued]
      · cases stepped
  | statisticalEnds time =>
      simp only [TrafficControl.step, timely_iff] at stepped
      split at stepped
      · rename_i onTime
        obtain rfl := Option.some.inj stepped
        exact ⟨onTime.2, kept.shaper.calm onTime.1 (fun _ member => member) kept.shaper.consumer rfl
          rfl kept.shaper.inOrder,
          kept.policer.later ⟨rfl, rfl, rfl, rfl, rfl, rfl, rfl, rfl⟩ onTime.1⟩
      · cases stepped

theorem start_kept (memory : Memory) (now cap : ℕ) : (start memory now).Kept memory cap := by
  refine ⟨?_, ⟨?_, ?_, fun _ => rfl, ?_, rfl⟩, Nat.le_refl _, Nat.zero_le _, ?_, rfl, ?_, ?_⟩
  · intro task time isDue
    cases task with
    | trafficShapingStatistical =>
        obtain rfl := Option.some.inj isDue
        exact Nat.le_add_right _ _
    | _ =>
        obtain rfl := Option.some.inj isDue
        exact Nat.le_refl _
  · rintro release ⟨⟩
  · rintro next ⟨⟩
    exact ⟨Nat.le_add_right _ _, fun _ => Or.inl rfl⟩
  · intro opens length
    change 0 * _ ≤ _
    omega
  · rintro ⟨⟩
  · rfl
  · exact (UInt64.add_zero memory.tpTotalDropedBytes).symm

/-- Where no packet is released while more than `cap` tokens have come together, the bursts are of
`cap + 1` packets at most, and the policer keeps to its limit where its bits do not carry. -/
theorem limits_of_capped (memory : Memory) (now cap : ℕ) (events : List Event)
    (capped : Guarded step (fun control => control.Capped cap) (start memory now) events) :
    Throughout step (fun control => control.Limits memory (cap + 1)) (start memory now) events := by
  intro first second middle split ran
  exact (throughout_of_guarded (fun _ _ _ (kept : Kept _ memory cap) met => kept.step met)
    (start_kept memory now cap) capped first second middle split ran).limits

/-- A packet comes to each queue at the start and one later. -/
def steady : List Event :=
  [.tsArrives 0 [1], .tpArrives 0 [1], .fire .generateToken, .fire .consumeToken,
    .fire .policingConsumePacket, .fire .policingStatistical, .tpArrives 5000 [2],
    .fire .policingConsumePacket, .fire .consumeToken]

theorem limits_of_capped_steady :
    Throughout step (fun control => control.Limits {} 2) (start {} 0) steady :=
  limits_of_capped {} 0 1 steady (by decide +kernel)

end TrafficControl

end FISim.Control
