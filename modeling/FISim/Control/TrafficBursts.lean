import FISim.Control.TrafficLimits

/-!
What the traffic control lets through beyond its limits: a burst that is as long
as the idle time before it, and bytes that are counted from a value that nobody
has set.
-/

namespace FISim.Control.TrafficControl

open Transition Agenda

variable {control next : TrafficControl} {goal : ℕ}

theorem fire_some {task : Task} {time : ℕ} (now : Timely control.due control.now)
    (isDue : control.due task = some time) (first : Timely control.due time) :
    control.step (.fire task) = some ((control.begin task time).perform task) := by
  simp only [step, isDue]
  rw [if_pos ((timely_iff control time).mpr ⟨now task time isDue, first⟩)]

theorem fire_done (control : TrafficControl) (task : Task) {time : ℕ}
    (first : Timely control.due time) :
    Done control.due ((control.begin task time).perform task).due task time ∧
      Timely ((control.begin task time).perform task).due
        ((control.begin task time).perform task).now := by
  have done : Done control.due ((control.begin task time).perform task).due task time :=
    done_perform rfl
  rw [perform_now]
  exact ⟨done, done.timely first⟩

theorem settle_fire {inv : TrafficControl → Prop}
    (timely : ∀ control, inv control → Timely control.due control.now)
    (keeps : ∀ control task time, inv control → control.due task = some time → time ≤ goal →
      Timely control.due time → inv ((control.begin task time).perform task))
    (initial : inv control) :
    ∃ events last, run step control events = some last ∧ inv last ∧
      ∀ task, ∀ time ∈ last.due task, goal < time := by
  have goes : ∀ control task time, inv control → control.due task = some time → time ≤ goal →
      Timely control.due time → ∃ next, control.step (.fire task) = some next ∧ inv next ∧
        Done control.due next.due task time := by
    intro control task time holds isDue below first
    refine ⟨_, fire_some (timely control holds) isDue first, ?_, (fire_done control task first).1⟩
    exact keeps control task time holds isDue below first
  exact settle goes initial

theorem again_self (control : TrafficControl) (task : Task) (time delay : ℕ) :
    ((control.begin task time).schedule task delay).due task = some (time + delay) := by
  change Function.update (control.begin task time).due task _ task = _
  exact Function.update_self ..

theorem again_of_ne (control : TrafficControl) (time delay : ℕ) {task other : Task}
    (different : other ≠ task) :
    ((control.begin task time).schedule task delay).due other = control.due other :=
  (schedule_of_ne _ delay different).trans (control.begin_of_ne time different)

theorem sameShaper_fire (control : TrafficControl) (time : ℕ) {task : Task}
    (tokens : task ≠ .generateToken) (consumes : task ≠ .consumeToken) :
    SameShaper control ((control.begin task time).perform task) := by
  have same : SameShaper (control.begin task time) _ := sameShaper_perform tokens consumes
  refine ⟨same.bucket, same.queue, same.arrived, same.released, same.ends, ?_, ?_⟩
  · exact same.tokens.trans (control.begin_of_ne time tokens.symm)
  · exact same.consumer.trans (control.begin_of_ne time consumes.symm)

theorem consumeToken_idle (ends : control.statisticalEnd = false) (queue : control.tsPktQueue = []) :
    control.consumeToken = control.schedule .consumeToken consumeInterval := by
  rw [consumeToken, release, ends, queue]
  rfl

theorem consumeToken_release {pkt : Packet} {rest : List Packet}
    (queue : control.tsPktQueue = pkt :: rest) (stocked : 0 < control.tokenBucket) :
    control.consumeToken =
      { control with
        tokenBucket := control.tokenBucket - 1
        consumeBytes := control.consumeBytes + (getSize pkt).toUInt64
        tsPktQueue := rest
        released := control.released ++ [(control.now, pkt)] }.schedule .consumeToken
          consumeInterval := by
  have goesOn : ¬ (control.statisticalEnd ∧ control.tsPktQueue = []) := by
    rw [queue]
    rintro ⟨-, ⟨⟩⟩
  rw [consumeToken, if_neg goesOn, release, queue]
  dsimp only
  rw [if_pos stocked]

/-- Tokens come together and no packet has come yet. -/
structure Idle (control : TrafficControl) (goal : ℕ) : Prop where
  timely : Timely control.due control.now
  early : control.now ≤ goal
  ends : control.statisticalEnd = false
  queue : control.tsPktQueue = []
  released : control.released = []
  tokens : control.due .generateToken = some (tokenInterval * control.tokenBucket.toNat)
  consumer : ∃ time, control.due .consumeToken = some time ∧ time ≤ control.now + consumeInterval

theorem tokenBucket_add {tokens : UInt64} {bound : ℕ} (small : bound < tokenInterval * (2 ^ 64 - 1))
    (below : tokenInterval * tokens.toNat ≤ bound) : (tokens + 1).toNat = tokens.toNat + 1 := by
  have fewer : tokens.toNat < 2 ^ 64 - 1 :=
    Nat.lt_of_mul_lt_mul_left (Nat.lt_of_le_of_lt below small)
  rw [UInt64.toNat_add]
  exact Nat.mod_eq_of_lt (by change tokens.toNat + 1 < 2 ^ 64; omega)

theorem Idle.same (idle : control.Idle goal) (same : SameShaper control next)
    (timely : Timely next.due next.now) (later : control.now ≤ next.now) (early : next.now ≤ goal) :
    next.Idle goal := by
  obtain ⟨time, isDue, soon⟩ := idle.consumer
  refine ⟨timely, early, same.ends.trans idle.ends, same.queue.trans idle.queue,
    same.released.trans idle.released, ?_, time, same.consumer.trans isDue, by omega⟩
  rw [same.tokens, same.bucket]
  exact idle.tokens

theorem Idle.fire (idle : control.Idle goal) (small : goal < tokenInterval * (2 ^ 64 - 1))
    {task : Task} {time : ℕ} (isDue : control.due task = some time) (below : time ≤ goal)
    (first : Timely control.due time) : ((control.begin task time).perform task).Idle goal := by
  obtain ⟨-, timely⟩ := fire_done control task first
  have now := perform_now (control.begin task time) task
  have later : control.now ≤ time := idle.timely task time isDue
  have early : ((control.begin task time).perform task).now ≤ goal := by
    rw [now]
    exact below
  by_cases tokens : task = .generateToken
  · subst tokens
    obtain rfl := Option.some.inj (idle.tokens.symm.trans isDue)
    obtain ⟨consumes, isNext, soon⟩ := idle.consumer
    refine ⟨timely, early, idle.ends, idle.queue, idle.released, ?_, consumes, ?_, ?_⟩
    · change some (tokenInterval * control.tokenBucket.toNat + tokenInterval) =
        some (tokenInterval * (control.tokenBucket + 1).toNat)
      rw [tokenBucket_add small below, Nat.mul_succ]
    · have consumer : Task.consumeToken ≠ .generateToken := by decide
      exact (again_of_ne control _ tokenInterval consumer).trans isNext
    · rw [now]
      exact Nat.le_trans soon (Nat.add_le_add_right later _)
  · by_cases consumes : task = .consumeToken
    · subst consumes
      have ran : (control.begin .consumeToken time).perform .consumeToken =
          (control.begin .consumeToken time).schedule .consumeToken consumeInterval :=
        consumeToken_idle idle.ends idle.queue
      rw [ran] at timely early ⊢
      refine ⟨timely, early, idle.ends, idle.queue, idle.released, ?_, _, again_self .., ?_⟩
      · have generator : Task.generateToken ≠ .consumeToken := by decide
        exact (again_of_ne control time _ generator).trans idle.tokens
      · exact Nat.le_refl _
    · exact idle.same (sameShaper_fire control time tokens consumes) timely
        (later.trans (Nat.le_of_eq now.symm)) early

theorem start_idle (goal : ℕ) : (start {} 0).Idle goal := by
  have timely := (start_kept {} 0 0).timely
  exact ⟨timely, Nat.zero_le _, rfl, rfl, rfl, rfl, 0, rfl, Nat.zero_le _⟩

theorem exists_idle {tokens : ℕ} (fits : tokens < 2 ^ 64 - 1) :
    ∃ events control, run step (start {} 0) events = some control ∧
      control.Idle (tokenInterval * tokens) ∧ tokens < control.tokenBucket.toNat := by
  have small : tokenInterval * tokens < tokenInterval * (2 ^ 64 - 1) :=
    Nat.mul_lt_mul_of_pos_left fits (by decide)
  obtain ⟨events, control, ran, idle, settled⟩ := settle_fire
    (fun _ (idle : Idle _ (tokenInterval * tokens)) => idle.timely)
    (fun _ _ _ idle isDue below first => idle.fire small isDue below first)
    (start_idle (tokenInterval * tokens))
  have later := settled .generateToken _ idle.tokens
  exact ⟨events, control, ran, idle, Nat.lt_of_mul_lt_mul_left later⟩

/-- Of the packets that have come at a moment some are released, one with every consumer event. -/
structure Draining (control : TrafficControl) (opens first count : ℕ) : Prop where
  timely : Timely control.due control.now
  opened : opens ≤ control.now
  ends : control.statisticalEnd = false
  total : control.released.length + control.tsPktQueue.length = count
  inside : ∀ release ∈ control.released,
    opens ≤ release.1 ∧ release.1 ≤ first + consumeInterval * count
  stocked : control.tsPktQueue.length ≤ control.tokenBucket.toNat
  tokens : ∃ time, control.due .generateToken = some time ∧
    tokenInterval * control.tokenBucket.toNat ≤ time
  consumer : control.tsPktQueue ≠ [] → control.due .consumeToken =
    some (first + consumeInterval * control.released.length)

theorem Draining.same {opens first count : ℕ} (draining : control.Draining opens first count)
    (same : SameShaper control next) (timely : Timely next.due next.now)
    (later : control.now ≤ next.now) : next.Draining opens first count := by
  obtain ⟨time, isDue, enough⟩ := draining.tokens
  refine ⟨timely, Nat.le_trans draining.opened later, same.ends.trans draining.ends, ?_, ?_, ?_,
    ⟨time, same.tokens.trans isDue, ?_⟩, ?_⟩
  · rw [same.released, same.queue]
    exact draining.total
  · rw [same.released]
    exact draining.inside
  · rw [same.queue, same.bucket]
    exact draining.stocked
  · rw [same.bucket]
    exact enough
  · rw [same.queue, same.consumer, same.released]
    exact draining.consumer

theorem Draining.fire {opens first count : ℕ} (draining : control.Draining opens first count)
    (small : first + consumeInterval * count < tokenInterval * (2 ^ 64 - 1)) {task : Task} {time : ℕ}
    (isDue : control.due task = some time) (below : time ≤ first + consumeInterval * count)
    (next : Timely control.due time) :
    ((control.begin task time).perform task).Draining opens first count := by
  obtain ⟨-, timely⟩ := fire_done control task next
  have now := perform_now (control.begin task time) task
  have later : control.now ≤ time := draining.timely task time isDue
  have opened : opens ≤ ((control.begin task time).perform task).now := by
    rw [now]
    exact Nat.le_trans draining.opened later
  obtain ⟨token, generates, enough⟩ := draining.tokens
  by_cases tokens : task = .generateToken
  · subst tokens
    obtain rfl := Option.some.inj (generates.symm.trans isDue)
    have grown := tokenBucket_add small (Nat.le_trans enough below)
    refine ⟨timely, opened, draining.ends, draining.total, draining.inside, ?_,
      ⟨token + tokenInterval, again_self control .generateToken token tokenInterval, ?_⟩, ?_⟩
    · change control.tsPktQueue.length ≤ (control.tokenBucket + 1).toNat
      rw [grown]
      exact Nat.le_succ_of_le draining.stocked
    · change tokenInterval * (control.tokenBucket + 1).toNat ≤ _
      rw [grown, Nat.mul_succ]
      exact Nat.add_le_add_right enough _
    · intro filled
      have consumer : Task.consumeToken ≠ .generateToken := by decide
      exact (again_of_ne control token tokenInterval consumer).trans (draining.consumer filled)
  · by_cases consumes : task = .consumeToken
    · subst consumes
      have generator : Task.generateToken ≠ .consumeToken := by decide
      cases queue : control.tsPktQueue with
      | nil =>
          have ran : (control.begin .consumeToken time).perform .consumeToken =
              (control.begin .consumeToken time).schedule .consumeToken consumeInterval :=
            consumeToken_idle draining.ends queue
          rw [ran] at timely opened ⊢
          refine ⟨timely, opened, draining.ends, draining.total, draining.inside, draining.stocked,
            ⟨token, (again_of_ne control time _ generator).trans generates, enough⟩, ?_⟩
          intro filled
          exact absurd queue filled
      | cons pkt rest =>
          have total := draining.total
          have stocked := draining.stocked
          have isNext := draining.consumer (by rw [queue]; exact List.cons_ne_nil _ _)
          obtain rfl := Option.some.inj (isNext.symm.trans isDue)
          rw [queue, List.length_cons] at total stocked
          have positive : 0 < control.tokenBucket := by
            rw [UInt64.lt_iff_toNat_lt, UInt64.toNat_zero]
            omega
          have fewer : (control.tokenBucket - 1).toNat = control.tokenBucket.toNat - 1 :=
            UInt64.toNat_sub_of_le _ _ (UInt64.le_iff_toNat_le.mpr (UInt64.lt_iff_toNat_lt.mp positive))
          generalize moment : first + consumeInterval * control.released.length = time at *
          have ran : (control.begin .consumeToken time).perform .consumeToken = _ :=
            consumeToken_release queue positive
          rw [ran] at timely opened ⊢
          refine ⟨timely, opened, draining.ends, ?_, ?_, ?_, ⟨token, ?_, ?_⟩, ?_⟩
          · change (control.released ++ [(time, pkt)]).length + rest.length = count
            rw [List.length_append, List.length_singleton]
            omega
          · intro release member
            rcases List.mem_append.mp member with old | new
            · exact draining.inside release old
            · rw [List.mem_singleton.mp new]
              exact ⟨opened, below⟩
          · change rest.length ≤ (control.tokenBucket - 1).toNat
            omega
          · exact (again_of_ne control time consumeInterval generator).trans generates
          · change tokenInterval * (control.tokenBucket - 1).toNat ≤ token
            refine Nat.le_trans (Nat.mul_le_mul_left _ ?_) enough
            omega
          · intro _
            change _ = some (first + consumeInterval * (control.released ++ [(time, pkt)]).length)
            rw [List.length_append, List.length_singleton, Nat.mul_succ, ← Nat.add_assoc, moment]
            exact again_self control .consumeToken time consumeInterval
    · exact draining.same (sameShaper_fire control time tokens consumes) timely
        (later.trans (Nat.le_of_eq now.symm))

def arriving (control : TrafficControl) (pkts : List Packet) : TrafficControl :=
  { control with
    tsPktQueue := control.tsPktQueue ++ pkts
    tsArrived := control.tsArrived ++ pkts }

theorem run_arriving (timely : Timely control.due control.now) (pkts : List Packet) :
    run step control (pkts.map fun pkt => .tsArrives control.now pkt) =
      some (control.arriving pkts) := by
  induction pkts generalizing control with
  | nil => simp [arriving]
  | cons pkt rest ih =>
      have arrives : control.step (.tsArrives control.now pkt) = some (control.arriving [pkt]) := by
        rw [step, if_pos ((timely_iff control control.now).mpr ⟨Nat.le_refl _, timely⟩)]
        rfl
      have later : Timely (control.arriving [pkt]).due (control.arriving [pkt]).now := timely
      rw [List.map_cons, run_cons, arrives, Option.bind_some]
      refine (ih later).trans ?_
      simp only [arriving, List.append_assoc, List.singleton_append]

/-- A burst after an idle time passes at the pace of the consumer, three times that of the tokens. -/
theorem exists_burst (pkt : Packet) {burst : ℕ} (fits : burst < 2 ^ 62) :
    ∃ events control, run step (start {} 0) events = some control ∧ ¬ control.Limits {} burst := by
  obtain ⟨count, isCount⟩ : ∃ count, count = 2 * burst + 1 := ⟨_, rfl⟩
  have enough : count < 2 ^ 64 - 1 := by omega
  obtain ⟨before, control, ran, idle, stocked⟩ := exists_idle enough
  obtain ⟨first, isDue, soon⟩ := idle.consumer
  have early := idle.early
  have initial : (control.arriving (List.replicate count pkt)).Draining control.now first count := by
    refine ⟨idle.timely, Nat.le_refl _, idle.ends, ?_, ?_, ?_, ⟨_, idle.tokens, Nat.le_refl _⟩, ?_⟩
    · simp [arriving, idle.released, idle.queue]
    · simp [arriving, idle.released]
    · simp only [arriving, idle.queue, List.nil_append, List.length_replicate]
      omega
    · intro _
      simp [arriving, idle.released, isDue]
  have small : first + consumeInterval * count < tokenInterval * (2 ^ 64 - 1) := by
    simp only [consumeInterval, tokenInterval, microsecond, trafficShapingLimitThroughput] at *
    omega
  obtain ⟨events, last, drained, draining, settled⟩ := settle_fire
    (fun _ (draining : Draining _ control.now first count) => draining.timely)
    (fun _ _ _ draining isDue below next => draining.fire small isDue below next) initial
  refine ⟨before ++ ((List.replicate count pkt).map (fun pkt => .tsArrives control.now pkt) ++ events),
    last, run_append_some ran (run_append_some (run_arriving idle.timely _) drained), ?_⟩
  intro limits
  have total := draining.total
  have empty : last.tsPktQueue = [] := by
    by_contra filled
    have left := List.length_pos_of_ne_nil filled
    have later := settled .consumeToken _ (draining.consumer filled)
    have fewer := Nat.mul_le_mul_left consumeInterval (show last.released.length ≤ count by omega)
    omega
  rw [empty, List.length_nil, Nat.add_zero] at total
  have all : last.window control.now (first + consumeInterval * count - control.now) =
      last.released := by
    refine List.filter_eq_self.mpr fun release member => ?_
    obtain ⟨opened, closed⟩ := draining.inside release member
    simp only [decide_eq_true_eq]
    omega
  have shaped := limits.shaped control.now (first + consumeInterval * count - control.now)
  rw [all, total] at shaped
  simp only [consumeInterval, tokenInterval, microsecond, trafficShapingLimitThroughput] at *
  omega

/-- The first packet is dropped for want of time, the second brings the count of the bits to 2^64. -/
def carrying : List Event :=
  [.tpArrives 0 (List.replicate 515 0), .tpArrives 0 (List.replicate 515 0),
    .fire .policingConsumePacket, .fire .generateToken, .fire .consumeToken,
    .fire .policingStatistical, .fire .policingConsumePacket]

/-- Bursts grow with the idle time as far as tokens can be counted, and where the bytes of the first
interval start from a value that makes their bits carry, the policer passes its limit. -/
theorem limits_exceeded :
    (∀ burst < 2 ^ 62, ∃ events control,
      run step (start {} 0) events = some control ∧ ¬ control.Limits {} burst) ∧
    ∃ memory control, run step (start memory 0) carrying = some control ∧
      ∀ burst, ¬ control.Limits memory burst := by
  refine ⟨fun burst fits => exists_burst [0] fits, { intervalTpBytes := 2 ^ 61 - 515 }, ?_⟩
  have carries : (run step (start { intervalTpBytes := 2 ^ 61 - 515 } 0) carrying).map
      (fun control => (control.intervalConsumed, control.now, control.lastTpStartTime)) =
        some (515, 10000, 0) := by decide +kernel
  obtain ⟨control, ran, counts⟩ := Option.map_eq_some_iff.mp carries
  refine ⟨control, ran, fun burst limits => ?_⟩
  have policed := limits.policed
  simp only [Prod.mk.injEq] at counts
  rw [counts.1, counts.2.1, counts.2.2] at policed
  exact absurd (policed (by decide)) (by decide)

end FISim.Control.TrafficControl
