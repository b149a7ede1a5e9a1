import FISim.Events.Simulator

/-!
The order in which `DefaultSimulatorImpl` invokes its events, over whole runs.
-/

namespace FISim.Events

open Transition

@[simp] theorem Event.id_inj {first second : Event} : first.id = second.id ↔ first = second := by
  constructor
  · intro same
    obtain ⟨impl, ts, uid, context⟩ := first
    obtain ⟨impl', ts', uid', context'⟩ := second
    simp only [Event.id, EventId.mk.injEq, Option.some.injEq] at same
    obtain ⟨rfl, rfl, rfl, rfl⟩ := same
    rfl
  · rintro rfl
    rfl

/-- The id's place is behind the event that is being invoked. -/
def Ahead (simulator : DefaultSimulatorImpl) (id : EventId) : Prop :=
  simulator.currentTs.toNat < id.ts.toNat ∨
    simulator.currentTs.toNat = id.ts.toNat ∧ simulator.currentUid.toNat < id.uid.toNat

theorem isExpired_iff {simulator : DefaultSimulatorImpl} {id : EventId} {impl : ℕ}
    (plain : id.uid ≠ EventId.destroyUid) (made : id.impl = some impl) :
    simulator.isExpired id = true ↔ ¬ Ahead simulator id ∨ simulator.cancelled impl = true := by
  rw [DefaultSimulatorImpl.isExpired, if_neg plain, made, Ahead]
  simp only [Bool.or_eq_true, Bool.and_eq_true, decide_eq_true_eq, beq_iff_eq,
    UInt64.lt_iff_toNat_lt, UInt32.le_iff_toNat_le, ← UInt64.toNat_inj]
  constructor
  · rintro ((early | ⟨same, low⟩) | cancelled)
    · exact Or.inl (by omega)
    · exact Or.inl (by omega)
    · exact Or.inr cancelled
  · rintro (passed | cancelled)
    · exact Or.inl (by omega)
    · exact Or.inr cancelled

theorem isExpired_null (simulator : DefaultSimulatorImpl) : simulator.isExpired {} = true := by
  simp [DefaultSimulatorImpl.isExpired, EventId.destroyUid]

theorem pair_sublist {ids : List EventId} {first second : EventId}
    (sorted : ids.Pairwise fun one two => one.uid.toNat < two.uid.toNat) (isFirst : first ∈ ids)
    (isSecond : second ∈ ids) (less : first.uid.toNat < second.uid.toNat) :
    [first, second].Sublist ids := by
  induction ids with
  | nil => simp at isFirst
  | cons id rest ih =>
      obtain ⟨above, later⟩ := List.pairwise_cons.mp sorted
      rcases List.mem_cons.mp isSecond with rfl | secondLater
      · rcases List.mem_cons.mp isFirst with rfl | firstLater
        · omega
        · have := above first firstLater
          omega
      · rcases List.mem_cons.mp isFirst with rfl | firstLater
        · exact (List.singleton_sublist.mpr secondLater).cons_cons first
        · exact (ih later firstLater secondLater).cons id

structure Inv (state : State) : Prop where
  uids : state.scheduled.Pairwise fun first second => first.uid.toNat < second.uid.toNat
  range : ∀ id ∈ state.scheduled,
    EventId.validUid.toNat ≤ id.uid.toNat ∧ id.uid.toNat < EventId.validUid.toNat + state.issues
  impls : ∀ id ∈ state.scheduled, ∃ impl < state.impls, id.impl = some impl
  apart : ∀ id ∈ state.scheduled, ∀ other ∈ state.scheduled, id.impl = other.impl → id = other
  destroys : ∀ id ∈ state.destroys, id.uid = EventId.destroyUid ∧
    ∃ impl < state.impls, id.impl = some impl ∧ ∀ other ∈ state.scheduled, other.impl ≠ some impl
  nextUid : state.simulator.uid.toNat = (EventId.validUid.toNat + state.issues) % 2 ^ 32
  currentUid : state.simulator.currentUid.toNat < EventId.validUid.toNat + state.issues
  fresh : ∀ impl, state.impls ≤ impl → state.simulator.cancelled impl = false
  cancelled : ∀ id ∈ state.scheduled, ∀ impl, id.impl = some impl →
    (state.simulator.cancelled impl = true ↔ id ∈ state.dropped)
  waiting : ∀ event ∈ state.queue,
    event.id ∈ state.scheduled ∧ event.id ∉ state.turns ∧ Ahead state.simulator event.id
  awaits : ∀ id ∈ state.scheduled, id ∉ state.turns → id ∉ state.dropped →
    ∃ event ∈ state.queue, event.id = id
  distinct : DistinctUids state.queue
  counted : state.simulator.unscheduledEvents.toInt = state.queue.length
  ordered : state.turns.Pairwise EventId.Before
  past : ∀ id ∈ state.turns, id ∈ state.scheduled ∧ ¬ Ahead state.simulator id
  invoked : state.invoked = state.turns.filter fun id => id ∉ state.dropped
  dropped : ∀ id ∈ state.dropped, id ∈ state.scheduled

namespace Inv

variable {state : State} (inv : Inv state)

include inv in
theorem plain {id : EventId} (member : id ∈ state.scheduled) : id.uid ≠ EventId.destroyUid := by
  intro destroy
  have low := (inv.range id member).1
  rw [destroy] at low
  exact absurd low (by decide)

include inv in
theorem isExpired_iff {id : EventId} (member : id ∈ state.scheduled) :
    state.simulator.isExpired id = true ↔ id ∈ state.turns ∨ id ∈ state.dropped := by
  obtain ⟨impl, -, made⟩ := inv.impls id member
  rw [Events.isExpired_iff (inv.plain member) made, inv.cancelled id member impl made]
  constructor
  · rintro (passed | dropped)
    · by_contra neither
      rw [not_or] at neither
      obtain ⟨event, queued, rfl⟩ := inv.awaits id member neither.1 neither.2
      exact passed (inv.waiting event queued).2.2
    · exact Or.inr dropped
  · rintro (turned | dropped)
    · exact Or.inl (inv.past id turned).2
    · exact Or.inr dropped

include inv in
theorem mem_invoked {id : EventId} :
    id ∈ state.invoked ↔ id ∈ state.turns ∧ id ∉ state.dropped := by
  rw [inv.invoked, List.mem_filter, decide_eq_true_eq]

include inv in
theorem turns_nodup : state.turns.Nodup := by
  apply inv.ordered.imp
  rintro first second before rfl
  rw [EventId.Before] at before
  omega

include inv in
theorem orderly : Orderly state := by
  have notQueued : ∀ id ∈ state.turns, id ∉ state.queue.map Event.id := by
    intro id turned queued
    obtain ⟨event, member, rfl⟩ := List.mem_map.mp queued
    exact (inv.waiting event member).2.1 turned
  constructor
  · have sublist : state.invoked.Sublist state.turns := by
      rw [inv.invoked]
      exact List.filter_sublist
    apply (inv.ordered.sublist sublist).imp_of_mem
    intro first second isFirst isSecond before
    have firstTurn := (inv.past first (sublist.subset isFirst)).1
    have secondTurn := (inv.past second (sublist.subset isSecond)).1
    rcases before with early | ⟨same, less⟩
    · exact Or.inl (UInt64.lt_iff_toNat_lt.mpr early)
    · exact Or.inr ⟨UInt64.toNat_inj.mp same, pair_sublist inv.uids firstTurn secondTurn less⟩
  · intro id member kept gone
    have turned : id ∈ state.turns := by
      by_contra waits
      obtain ⟨event, queued, rfl⟩ := inv.awaits id member waits kept
      exact gone (List.mem_map_of_mem queued)
    apply List.count_eq_one_of_mem
    · rw [inv.invoked]
      exact inv.turns_nodup.filter _
    · exact inv.mem_invoked.mpr ⟨turned, kept⟩
  · intro id ran
    obtain ⟨turned, kept⟩ := inv.mem_invoked.mp ran
    exact ⟨(inv.past id turned).1, kept, notQueued id turned⟩
  · intro id member
    rw [inv.isExpired_iff member, inv.mem_invoked]
    tauto
  · exact inv.counted

theorem toInt_succ {count : Int32} (below : count.toInt < 2 ^ 31 - 1) :
    (count + 1).toInt = count.toInt + 1 := by
  have low := count.le_toInt
  rw [Int32.toInt_add, show (1 : Int32).toInt = 1 from rfl]
  apply Int.bmod_eq_of_le
  · omega
  · omega

theorem toInt_pred {count : Int32} (positive : 0 < count.toInt) :
    (count - 1).toInt = count.toInt - 1 := by
  have high := count.toInt_lt
  rw [Int32.toInt_sub, show (1 : Int32).toInt = 1 from rfl]
  apply Int.bmod_eq_of_le
  · omega
  · omega

theorem distinct_perm {events other : List Event} (perm : events.Perm other) :
    DistinctUids events ↔ DistinctUids other :=
  perm.pairwise_iff fun different => different.symm

include inv in
theorem requeue {scheduler : Scheduler} {events : scheduler.Queue}
    (perm : (scheduler.queued events).Perm state.queue) :
    Inv { state with simulator := { state.simulator with scheduler, events } } where
  uids := inv.uids
  range := inv.range
  impls := inv.impls
  apart := inv.apart
  destroys := inv.destroys
  nextUid := inv.nextUid
  currentUid := inv.currentUid
  fresh := inv.fresh
  cancelled := inv.cancelled
  waiting event queued := inv.waiting event (perm.mem_iff.mp queued)
  awaits id member waits kept := by
    obtain ⟨event, queued, same⟩ := inv.awaits id member waits kept
    exact ⟨event, perm.mem_iff.mpr queued, same⟩
  distinct := (distinct_perm perm).mpr inv.distinct
  counted := inv.counted.trans (congrArg Nat.cast perm.length_eq.symm)
  ordered := inv.ordered
  past := inv.past
  invoked := inv.invoked
  dropped := inv.dropped

theorem moveEvents_spec (source target : Scheduler) (fuel : ℕ) (events : source.Queue)
    (moved : target.Queue) (enough : (source.queued events).length < fuel) :
    ∃ filled, DefaultSimulatorImpl.moveEvents source target fuel events moved = some filled ∧
      (target.queued filled).Perm (source.queued events ++ target.queued moved) := by
  induction fuel generalizing events moved with
  | zero => omega
  | succ fuel ih =>
      rw [DefaultSimulatorImpl.moveEvents]
      by_cases empty : source.isEmpty events = true
      · refine ⟨moved, if_pos empty, ?_⟩
        rw [(source.isEmpty_iff events).mp empty, List.nil_append]
      · have some_queued : source.queued events ≠ [] :=
          fun none_queued => empty ((source.isEmpty_iff events).mpr none_queued)
        obtain ⟨next, rest, removed, perm, -⟩ := source.removeNext_least events some_queued
        have length := perm.length_eq
        rw [List.length_cons] at length
        obtain ⟨filled, looped, filledPerm⟩ := ih rest (target.insert moved next) (by omega)
        refine ⟨filled, ?_, ?_⟩
        · rw [if_neg empty, removed]
          exact looped
        · apply filledPerm.trans
          apply ((target.queued_insert moved next).append_left _).trans
          exact List.perm_middle.trans (perm.symm.append_right _)

include inv in
theorem setScheduler {scheduler : Scheduler} {next : State}
    (stepped : step state (.setScheduler scheduler) = some next) : Inv next := by
  obtain ⟨events, moved, perm⟩ := moveEvents_spec state.simulator.scheduler scheduler
    (state.queue.length + 1) state.simulator.events scheduler.empty (Nat.lt_succ_self _)
  rw [scheduler.queued_empty, List.append_nil] at perm
  have changed : state.simulator.setScheduler scheduler =
      some { state.simulator with scheduler, events } := by
    rw [DefaultSimulatorImpl.setScheduler]
    exact congrArg (Option.map _) moved
  rw [step, changed] at stepped
  rw [← Option.some.inj stepped]
  exact inv.requeue perm

theorem behind_least {queue rest : List Event} {next : Event} (distinct : DistinctUids queue)
    (perm : queue.Perm (next :: rest))
    (least : ∀ other ∈ queue, other.key.before next.key = false) {event : Event}
    (member : event ∈ rest) :
    next.id.Before event.id ∧ event ≠ next := by
  have apart := (List.pairwise_cons.mp ((distinct_perm perm).mp distinct)).1 event member
  have notBefore := least event (perm.mem_iff.mpr (List.mem_cons_of_mem next member))
  rw [EventKey.not_before_iff] at notBefore
  rw [ne_eq, ← UInt32.toNat_inj] at apart
  refine ⟨?_, ?_⟩
  · rw [EventId.Before]
    change next.key.ts.toNat < event.key.ts.toNat ∨
      next.key.ts.toNat = event.key.ts.toNat ∧ next.key.uid.toNat < event.key.uid.toNat
    omega
  · rintro rfl
    exact apart rfl

include inv in
theorem processOneEvent {next : State} (stepped : step state .processOneEvent = some next) :
    Inv next := by
  rw [step] at stepped
  split at stepped
  · simp at stepped
  · rename_i busy
    have some_queued : state.queue ≠ [] :=
      fun none_queued => busy ((state.simulator.scheduler.isEmpty_iff _).mpr none_queued)
    obtain ⟨event, rest, removed, perm, least⟩ :=
      state.simulator.scheduler.removeNext_least state.simulator.events some_queued
    have head : event ∈ state.queue := perm.mem_iff.mpr (by simp)
    have inside : ∀ other ∈ state.simulator.scheduler.queued rest, other ∈ state.queue :=
      fun other member => perm.mem_iff.mpr (List.mem_cons_of_mem event member)
    obtain ⟨known, waits, ahead⟩ := inv.waiting event head
    have later : ¬ event.key.ts < state.simulator.currentTs := by
      rw [UInt64.lt_iff_toNat_lt]
      rcases ahead with early | ⟨same, -⟩
      · change _ < event.key.ts.toNat at early
        omega
      · change _ = event.key.ts.toNat at same
        omega
    rw [DefaultSimulatorImpl.processOneEvent, removed] at stepped
    simp only [if_neg later, Option.map_some, Option.some.injEq] at stepped
    subst stepped
    have beforeEvent : ∀ id ∈ state.turns, id.Before event.id := by
      intro id turned
      have passed := (inv.past id turned).2
      rw [Ahead] at passed ahead
      rw [EventId.Before]
      omega
    have counted := inv.counted
    have length : state.queue.length = (state.simulator.scheduler.queued rest).length + 1 :=
      perm.length_eq
    have notified : (!state.simulator.cancelled event.impl) = decide (event.id ∉ state.dropped) := by
      have flag := inv.cancelled event.id known event.impl rfl
      cases set : state.simulator.cancelled event.impl with
      | true => simp [flag.mp set]
      | false =>
          rw [set] at flag
          simp [show event.id ∉ state.dropped by simpa using flag]
    constructor
    · exact inv.uids
    · exact inv.range
    · exact inv.impls
    · exact inv.apart
    · exact inv.destroys
    · exact inv.nextUid
    · exact (inv.range event.id known).2
    · exact inv.fresh
    · exact inv.cancelled
    · intro other member
      obtain ⟨otherKnown, otherWaits, -⟩ := inv.waiting other (inside other member)
      obtain ⟨behind, different⟩ := behind_least inv.distinct perm least member
      refine ⟨otherKnown, ?_, behind⟩
      rw [List.mem_append, List.mem_singleton, Event.id_inj, not_or]
      exact ⟨otherWaits, different⟩
    · intro id member notTurned kept
      rw [List.mem_append, List.mem_singleton, not_or] at notTurned
      obtain ⟨other, queued, same⟩ := inv.awaits id member notTurned.1 kept
      refine ⟨other, ?_, same⟩
      rcases List.mem_cons.mp (perm.mem_iff.mp queued) with rfl | later
      · exact absurd same.symm notTurned.2
      · exact later
    · exact (List.pairwise_cons.mp ((distinct_perm perm).mp inv.distinct)).2
    · change (state.simulator.unscheduledEvents - 1).toInt =
        ((state.simulator.scheduler.queued rest).length : ℤ)
      rw [toInt_pred (by omega)]
      omega
    · apply List.pairwise_append.mpr
      refine ⟨inv.ordered, List.pairwise_singleton _ _, ?_⟩
      intro id turned other isEvent
      rw [List.mem_singleton.mp isEvent]
      exact beforeEvent id turned
    · intro id member
      rcases List.mem_append.mp member with turned | now
      · refine ⟨(inv.past id turned).1, ?_⟩
        have before := beforeEvent id turned
        change ¬ event.id.Before id
        rw [EventId.Before] at before ⊢
        omega
      · rw [List.mem_singleton.mp now]
        refine ⟨known, ?_⟩
        change ¬ event.id.Before event.id
        rw [EventId.Before]
        omega
    · change state.invoked ++ (if (!state.simulator.cancelled event.impl) = true then [event.id]
        else []) = (state.turns ++ [event.id]).filter fun id => id ∉ state.dropped
      rw [List.filter_append, ← inv.invoked, notified]
      by_cases dropped : event.id ∈ state.dropped
      · simp [dropped]
      · simp [dropped]
    · exact inv.dropped

theorem absolute_toNat {simulator : DefaultSimulatorImpl} {delay : Int64} (positive : 0 ≤ delay)
    (time : simulator.currentTs.toNat + delay.toInt.toNat < 2 ^ 63) :
    (delay + simulator.currentTs.toInt64).toUInt64.toNat =
      simulator.currentTs.toNat + delay.toInt.toNat := by
  have small : delay.toUInt64.toNat = delay.toInt.toNat := Int64.toNat_toUInt64_of_le positive
  rw [Int64.toUInt64_add, UInt64.toUInt64_toInt64, UInt64.toNat_add, small]
  omega

/-- An id that no event has: an `EventImpl` just made, and the next number. -/
structure Fresh (state : State) (id : EventId) : Prop where
  impl : id.impl = some state.impls
  uid : id.uid.toNat = EventId.validUid.toNat + state.issues

section Issue

variable {id : EventId} (fresh : Fresh state id)

include inv fresh

theorem uid_lt {other : EventId} (member : other ∈ state.scheduled) :
    other.uid.toNat < id.uid.toNat := by
  rw [fresh.uid]
  exact (inv.range other member).2

theorem unscheduled : id ∉ state.scheduled :=
  fun member => absurd (inv.uid_lt fresh member) (Nat.lt_irrefl _)

theorem impl_ne {other : EventId} (member : other ∈ state.scheduled) : other.impl ≠ id.impl := by
  obtain ⟨impl, below, made⟩ := inv.impls other member
  rw [made, fresh.impl, ne_eq, Option.some.injEq]
  omega

theorem uids_issue : (state.scheduled ++ [id]).Pairwise fun first second =>
    first.uid.toNat < second.uid.toNat := by
  refine List.pairwise_append.mpr ⟨inv.uids, List.pairwise_singleton _ _, ?_⟩
  intro other member new isNew
  rw [List.mem_singleton.mp isNew]
  exact inv.uid_lt fresh member

theorem range_issue : ∀ other ∈ state.scheduled ++ [id],
    EventId.validUid.toNat ≤ other.uid.toNat ∧
      other.uid.toNat < EventId.validUid.toNat + (state.issues + 1) := by
  intro other member
  rcases List.mem_append.mp member with old | new
  · have range := inv.range other old
    omega
  · rw [List.mem_singleton.mp new, fresh.uid]
    omega

theorem impls_issue :
    ∀ other ∈ state.scheduled ++ [id], ∃ impl < state.impls + 1, other.impl = some impl := by
  intro other member
  rcases List.mem_append.mp member with old | new
  · obtain ⟨impl, below, made⟩ := inv.impls other old
    exact ⟨impl, Nat.lt_succ_of_lt below, made⟩
  · rw [List.mem_singleton.mp new]
    exact ⟨state.impls, Nat.lt_succ_self _, fresh.impl⟩

theorem apart_issue : ∀ one ∈ state.scheduled ++ [id], ∀ other ∈ state.scheduled ++ [id],
    one.impl = other.impl → one = other := by
  intro one isOne other isOther same
  rcases List.mem_append.mp isOne with old | new
  · rcases List.mem_append.mp isOther with otherOld | otherNew
    · exact inv.apart one old other otherOld same
    · rw [List.mem_singleton.mp otherNew] at same
      exact absurd same (inv.impl_ne fresh old)
  · rcases List.mem_append.mp isOther with otherOld | otherNew
    · rw [List.mem_singleton.mp new] at same
      exact absurd same.symm (inv.impl_ne fresh otherOld)
    · rw [List.mem_singleton.mp new, List.mem_singleton.mp otherNew]

theorem destroys_issue : ∀ destroy ∈ state.destroys, destroy.uid = EventId.destroyUid ∧
    ∃ impl < state.impls + 1, destroy.impl = some impl ∧
      ∀ other ∈ state.scheduled ++ [id], other.impl ≠ some impl := by
  intro destroy member
  obtain ⟨marked, impl, below, made, apart⟩ := inv.destroys destroy member
  refine ⟨marked, impl, Nat.lt_succ_of_lt below, made, ?_⟩
  intro other otherMember
  rcases List.mem_append.mp otherMember with old | new
  · exact apart other old
  · rw [List.mem_singleton.mp new, fresh.impl, ne_eq, Option.some.injEq]
    omega

theorem cancelled_issue : ∀ other ∈ state.scheduled ++ [id], ∀ impl, other.impl = some impl →
    (state.simulator.cancelled impl = true ↔ other ∈ state.dropped) := by
  intro other member impl made
  rcases List.mem_append.mp member with old | new
  · exact inv.cancelled other old impl made
  · rw [List.mem_singleton.mp new] at made ⊢
    rw [fresh.impl, Option.some.injEq] at made
    rw [← made, inv.fresh state.impls (Nat.le_refl _)]
    simp only [Bool.false_eq_true, false_iff]
    exact fun dropped => inv.unscheduled fresh (inv.dropped id dropped)

end Issue

include inv in
theorem insertEvent {delay : Int64} (fits : Schedulable state delay) (context : UInt32) :
    Inv (state.issue (state.simulator.insertEvent context
      (delay + state.simulator.currentTs.toInt64) state.impls)) := by
  have absolute := absolute_toNat fits.positive fits.time
  have room := fits.uids
  have notFull := fits.queue
  have uid : state.simulator.uid.toNat = EventId.validUid.toNat + state.issues := by
    rw [inv.nextUid]
    exact Nat.mod_eq_of_lt room
  let event : Event :=
    { impl := state.impls
      key := { ts := (delay + state.simulator.currentTs.toInt64).toUInt64, context,
               uid := state.simulator.uid } }
  have perm : (state.simulator.scheduler.queued
      (state.simulator.scheduler.insert state.simulator.events event)).Perm
        (event :: state.queue) := state.simulator.scheduler.queued_insert _ _
  have fresh : Fresh state event.id := ⟨rfl, uid⟩
  have unknown := inv.unscheduled fresh
  have ahead : Ahead state.simulator event.id := by
    have current := inv.currentUid
    change _ < ((delay + state.simulator.currentTs.toInt64).toUInt64).toNat ∨
      _ = ((delay + state.simulator.currentTs.toInt64).toUInt64).toNat ∧
        _ < state.simulator.uid.toNat
    omega
  have issues : (state.scheduled ++ [event.id]).length + state.destroys.length =
      state.issues + 1 := by
    rw [State.issues, List.length_append, List.length_singleton]
    omega
  constructor
  · exact inv.uids_issue fresh
  · change ∀ other ∈ state.scheduled ++ [event.id], _ ∧
      _ < _ + ((state.scheduled ++ [event.id]).length + state.destroys.length)
    rw [issues]
    exact inv.range_issue fresh
  · exact inv.impls_issue fresh
  · exact inv.apart_issue fresh
  · exact inv.destroys_issue fresh
  · change (state.simulator.uid + 1).toNat =
      (_ + ((state.scheduled ++ [event.id]).length + state.destroys.length)) % 2 ^ 32
    rw [issues, UInt32.toNat_add, uid]
    rfl
  · change _ < _ + ((state.scheduled ++ [event.id]).length + state.destroys.length)
    have := inv.currentUid
    change state.simulator.currentUid.toNat < _
    omega
  · intro impl beyond
    exact inv.fresh impl (Nat.le_of_succ_le beyond)
  · exact inv.cancelled_issue fresh
  · intro other queued
    rcases List.mem_cons.mp (perm.mem_iff.mp queued) with rfl | old
    · refine ⟨List.mem_append_right _ (List.mem_singleton_self _), ?_, ahead⟩
      exact fun turned => unknown (inv.past event.id turned).1
    · obtain ⟨known, waits, behind⟩ := inv.waiting other old
      exact ⟨List.mem_append_left _ known, waits, behind⟩
  · intro id member waits kept
    rcases List.mem_append.mp member with old | new
    · obtain ⟨other, queued, same⟩ := inv.awaits id old waits kept
      exact ⟨other, perm.mem_iff.mpr (List.mem_cons_of_mem _ queued), same⟩
    · exact ⟨event, perm.mem_iff.mpr (by simp), (List.mem_singleton.mp new).symm⟩
  · apply (distinct_perm perm).mpr
    refine List.pairwise_cons.mpr ⟨?_, inv.distinct⟩
    intro other queued same
    have less := inv.uid_lt fresh (inv.waiting other queued).1
    have same : event.id.uid = other.id.uid := same
    rw [same] at less
    exact Nat.lt_irrefl _ less
  · have counted := inv.counted
    change (state.simulator.unscheduledEvents + 1).toInt =
      ((state.simulator.scheduler.queued
        (state.simulator.scheduler.insert state.simulator.events event)).length : ℤ)
    rw [toInt_succ (by omega), perm.length_eq, List.length_cons]
    omega
  · exact inv.ordered
  · intro id turned
    obtain ⟨known, passed⟩ := inv.past id turned
    exact ⟨List.mem_append_left _ known, passed⟩
  · exact inv.invoked
  · intro id dropped
    exact List.mem_append_left _ (inv.dropped id dropped)

include inv in
theorem scheduleDestroy :
    Inv { state with
      simulator := (state.simulator.scheduleDestroy state.impls).1
      impls := state.impls + 1
      destroys := state.destroys ++ [(state.simulator.scheduleDestroy state.impls).2] } := by
  have issues : state.scheduled.length + (state.destroys ++
      [(state.simulator.scheduleDestroy state.impls).2]).length = state.issues + 1 := by
    rw [State.issues, List.length_append, List.length_singleton]
    omega
  constructor
  · exact inv.uids
  · intro id member
    have range := inv.range id member
    change _ ∧ _ < _ + (state.scheduled.length + (state.destroys ++
      [(state.simulator.scheduleDestroy state.impls).2]).length)
    omega
  · intro id member
    obtain ⟨impl, below, made⟩ := inv.impls id member
    exact ⟨impl, Nat.lt_succ_of_lt below, made⟩
  · exact inv.apart
  · intro id member
    rcases List.mem_append.mp member with old | new
    · obtain ⟨destroy, impl, below, made, apart⟩ := inv.destroys id old
      exact ⟨destroy, impl, Nat.lt_succ_of_lt below, made, apart⟩
    · rw [List.mem_singleton.mp new]
      refine ⟨rfl, state.impls, Nat.lt_succ_self _, rfl, ?_⟩
      intro other known same
      obtain ⟨impl, below, made⟩ := inv.impls other known
      rw [made] at same
      have := Option.some.inj same
      omega
  · change (state.simulator.uid + 1).toNat = (_ + (state.scheduled.length + (state.destroys ++
      [(state.simulator.scheduleDestroy state.impls).2]).length)) % 2 ^ 32
    rw [issues, UInt32.toNat_add, inv.nextUid, Nat.mod_add_mod]
    rfl
  · have := inv.currentUid
    change state.simulator.currentUid.toNat < _ + (state.scheduled.length + (state.destroys ++
      [(state.simulator.scheduleDestroy state.impls).2]).length)
    omega
  · exact fun impl beyond => inv.fresh impl (Nat.le_of_succ_le beyond)
  · exact inv.cancelled
  · exact inv.waiting
  · exact inv.awaits
  · exact inv.distinct
  · exact inv.counted
  · exact inv.ordered
  · exact inv.past
  · exact inv.invoked
  · exact inv.dropped

include inv in
theorem dropExpired {id : EventId} (expired : state.simulator.isExpired id = true) :
    Inv { state with dropped := state.drop id } := by
  have same : ∀ other, other ∈ state.drop id ↔ other ∈ state.dropped := by
    intro other
    rw [State.drop]
    split
    · rename_i open_
      rw [List.mem_append, List.mem_singleton]
      constructor
      · rintro (dropped | rfl)
        · exact dropped
        · exact ((inv.isExpired_iff open_.1).mp expired).resolve_left open_.2
      · exact Or.inl
    · rfl
  constructor
  · exact inv.uids
  · exact inv.range
  · exact inv.impls
  · exact inv.apart
  · exact inv.destroys
  · exact inv.nextUid
  · exact inv.currentUid
  · exact inv.fresh
  · intro other member impl made
    rw [same]
    exact inv.cancelled other member impl made
  · exact inv.waiting
  · intro other member waits kept
    exact inv.awaits other member waits fun dropped => kept ((same other).mpr dropped)
  · exact inv.distinct
  · exact inv.counted
  · exact inv.ordered
  · exact inv.past
  · change state.invoked = state.turns.filter fun other => other ∉ state.drop id
    rw [inv.invoked]
    apply List.filter_congr
    intro other _
    simp only [same]
  · intro other dropped
    exact inv.dropped other ((same other).mp dropped)

include inv in
theorem pending {id : EventId} (member : id ∈ state.scheduled)
    (running : state.simulator.isExpired id = false) :
    id ∉ state.turns ∧ id ∉ state.dropped ∧ state.drop id = state.dropped ++ [id] := by
  have open_ : ¬ (id ∈ state.turns ∨ id ∈ state.dropped) := by
    rw [← inv.isExpired_iff member, running]
    exact Bool.false_ne_true
  rw [not_or] at open_
  exact ⟨open_.1, open_.2, if_pos ⟨member, open_.1⟩⟩

include inv in
theorem cancelled_pending {id : EventId} {impl : ℕ} (member : id ∈ state.scheduled)
    (made : id.impl = some impl) (running : state.simulator.isExpired id = false)
    {events : state.simulator.scheduler.Queue} {unscheduledEvents : Int32}
    (kept : ∀ event ∈ state.simulator.scheduler.queued events, event ∈ state.queue)
    (left : ∀ event ∈ state.queue, event.id ≠ id →
      event ∈ state.simulator.scheduler.queued events)
    (distinct : DistinctUids (state.simulator.scheduler.queued events))
    (counted : unscheduledEvents.toInt = (state.simulator.scheduler.queued events).length) :
    Inv { state with
      simulator := { state.simulator with
        events
        unscheduledEvents
        cancelled := Function.update state.simulator.cancelled impl true }
      dropped := state.drop id } := by
  obtain ⟨notTurned, notDropped, drops⟩ := inv.pending member running
  have isDropped : ∀ other, other ∈ state.drop id ↔ other ∈ state.dropped ∨ other = id := by
    intro other
    rw [drops, List.mem_append, List.mem_singleton]
  constructor
  · exact inv.uids
  · exact inv.range
  · exact inv.impls
  · exact inv.apart
  · exact inv.destroys
  · exact inv.nextUid
  · exact inv.currentUid
  · intro other beyond
    have beyond : state.impls ≤ other := beyond
    obtain ⟨own, below, madeOwn⟩ := inv.impls id member
    have same := Option.some.inj (made.symm.trans madeOwn)
    change Function.update state.simulator.cancelled impl true other = false
    rw [Function.update_of_ne (by omega)]
    exact inv.fresh other beyond
  · intro other otherMember otherImpl otherMade
    change Function.update state.simulator.cancelled impl true otherImpl = true ↔ _
    rw [isDropped]
    by_cases same : otherImpl = impl
    · subst same
      have isId : other = id := inv.apart other otherMember id member (otherMade.trans made.symm)
      simp [isId]
    · have different : other ≠ id := by
        rintro rfl
        exact same (Option.some.inj (otherMade.symm.trans made))
      rw [Function.update_of_ne same, inv.cancelled other otherMember otherImpl otherMade]
      simp [different]
  · intro event queued
    exact inv.waiting event (kept event queued)
  · intro other otherMember waits notGone
    rw [isDropped, not_or] at notGone
    obtain ⟨event, queued, rfl⟩ := inv.awaits other otherMember waits notGone.1
    exact ⟨event, left event queued notGone.2, rfl⟩
  · exact distinct
  · exact counted
  · exact inv.ordered
  · exact inv.past
  · change state.invoked = state.turns.filter fun other => other ∉ state.drop id
    rw [inv.invoked]
    apply List.filter_congr
    intro other turned
    have different : other ≠ id := by
      rintro rfl
      exact notTurned turned
    simp [isDropped, different]
  · intro other dropped
    rcases (isDropped other).mp dropped with before | rfl
    · exact inv.dropped other before
    · exact member

include inv in
theorem cancelled_destroy {id : EventId} {impl : ℕ} (member : id ∈ state.destroys)
    (made : id.impl = some impl) :
    Inv { state with
      simulator := { state.simulator with
        cancelled := Function.update state.simulator.cancelled impl true }
      dropped := state.drop id } := by
  obtain ⟨destroy, own, below, madeOwn, apart⟩ := inv.destroys id member
  obtain rfl := Option.some.inj (made.symm.trans madeOwn)
  have foreign : id ∉ state.scheduled := fun scheduled => inv.plain scheduled destroy
  have drops : state.drop id = state.dropped := if_neg fun both => foreign both.1
  rw [drops]
  constructor
  · exact inv.uids
  · exact inv.range
  · exact inv.impls
  · exact inv.apart
  · exact inv.destroys
  · exact inv.nextUid
  · exact inv.currentUid
  · intro other beyond
    have beyond : state.impls ≤ other := beyond
    change Function.update state.simulator.cancelled impl true other = false
    rw [Function.update_of_ne (by omega)]
    exact inv.fresh other beyond
  · intro other otherMember otherImpl otherMade
    have different : otherImpl ≠ impl := by
      rintro rfl
      exact apart other otherMember otherMade
    change Function.update state.simulator.cancelled impl true otherImpl = true ↔ _
    rw [Function.update_of_ne different]
    exact inv.cancelled other otherMember otherImpl otherMade
  · exact inv.waiting
  · exact inv.awaits
  · exact inv.distinct
  · exact inv.counted
  · exact inv.ordered
  · exact inv.past
  · exact inv.invoked
  · exact inv.dropped

include inv in
theorem cancel {id : EventId} {next : State} (stepped : step state (.cancel id) = some next) :
    Inv next := by
  rw [step] at stepped
  split at stepped
  · rename_i known
    rw [DefaultSimulatorImpl.cancel] at stepped
    by_cases expired : state.simulator.isExpired id = true
    · rw [if_pos expired] at stepped
      rw [← Option.some.inj stepped]
      exact inv.dropExpired expired
    · rw [if_neg expired] at stepped
      rcases known with scheduled | destroyed | rfl
      · obtain ⟨impl, -, made⟩ := inv.impls id scheduled
        rw [made] at stepped
        rw [← Option.some.inj stepped]
        exact inv.cancelled_pending scheduled made (by simpa using expired)
          (fun event queued => queued) (fun event queued _ => queued) inv.distinct inv.counted
      · obtain ⟨-, impl, -, made, -⟩ := inv.destroys id destroyed
        rw [made] at stepped
        rw [← Option.some.inj stepped]
        exact inv.cancelled_destroy destroyed made
      · exact absurd (isExpired_null _) expired
  · simp at stepped

include inv in
theorem remove {id : EventId} {next : State} (stepped : step state (.remove id) = some next) :
    Inv next := by
  rw [step] at stepped
  split at stepped
  · rename_i known
    rw [DefaultSimulatorImpl.remove] at stepped
    by_cases destroy : id.uid = EventId.destroyUid
    · rw [if_pos destroy] at stepped
      have foreign : id ∉ state.scheduled := fun scheduled => inv.plain scheduled destroy
      have drops : state.drop id = state.dropped := if_neg fun both => foreign both.1
      rw [drops] at stepped
      rw [← Option.some.inj stepped]
      exact ⟨inv.uids, inv.range, inv.impls, inv.apart, inv.destroys, inv.nextUid, inv.currentUid,
        inv.fresh, inv.cancelled, inv.waiting, inv.awaits, inv.distinct, inv.counted, inv.ordered,
        inv.past, inv.invoked, inv.dropped⟩
    · rw [if_neg destroy] at stepped
      by_cases expired : state.simulator.isExpired id = true
      · rw [if_pos expired] at stepped
        rw [← Option.some.inj stepped]
        exact inv.dropExpired expired
      · rw [if_neg expired] at stepped
        rcases known with scheduled | destroyed | rfl
        · obtain ⟨impl, -, made⟩ := inv.impls id scheduled
          have running : state.simulator.isExpired id = false := by simpa using expired
          obtain ⟨notTurned, notDropped, -⟩ := inv.pending scheduled running
          obtain ⟨event, queued, isEvent⟩ := inv.awaits id scheduled notTurned notDropped
          obtain ⟨rest, removed, perm⟩ :=
            state.simulator.scheduler.queued_remove _ event queued inv.distinct
          have entry : event =
              { impl, key := { ts := id.ts, context := id.context, uid := id.uid } } := by
            rw [← Event.id_inj, isEvent]
            obtain ⟨idImpl, ts, context, uid⟩ := id
            obtain rfl := made
            rfl
          rw [entry] at removed
          simp only [made, removed, Option.map_some, Option.some.injEq] at stepped
          rw [← stepped]
          have counted := inv.counted
          have length : state.queue.length = (state.simulator.scheduler.queued rest).length + 1 :=
            perm.length_eq
          apply inv.cancelled_pending scheduled made running
          · exact fun other member => perm.mem_iff.mpr (List.mem_cons_of_mem event member)
          · intro other member different
            rcases List.mem_cons.mp (perm.mem_iff.mp member) with rfl | later
            · exact absurd isEvent different
            · exact later
          · exact (List.pairwise_cons.mp ((distinct_perm perm).mp inv.distinct)).2
          · rw [toInt_pred (by omega)]
            omega
        · exact absurd (inv.destroys id destroyed).1 destroy
        · exact absurd (isExpired_null _) expired
  · simp at stepped

theorem initial (scheduler : Scheduler) : Inv (start scheduler) := by
  have empty : (start scheduler).queue = [] := scheduler.queued_empty
  constructor
  · exact List.Pairwise.nil
  · simp [start]
  · simp [start]
  · simp [start]
  · simp [start]
  · rfl
  · exact Nat.zero_lt_succ _
  · exact fun _ _ => rfl
  · simp [start]
  · simp [empty]
  · simp [start]
  · rw [empty]
    exact List.Pairwise.nil
  · rw [empty]
    rfl
  · exact List.Pairwise.nil
  · simp [start]
  · rfl
  · simp [start]

end Inv

theorem step_inv (before : State) (action : Action) (after : State) (inv : Inv before)
    (fits : Fits before action) (stepped : step before action = some after) : Inv after := by
  cases action with
  | setScheduler scheduler => exact inv.setScheduler stepped
  | processOneEvent => exact inv.processOneEvent stepped
  | schedule delay =>
      have positive : ¬ delay < 0 := Int64.not_lt.mpr fits.positive
      rw [step, DefaultSimulatorImpl.schedule, if_neg positive] at stepped
      rw [← Option.some.inj stepped]
      exact inv.insertEvent fits _
  | scheduleNow =>
      rw [step, DefaultSimulatorImpl.scheduleNow, DefaultSimulatorImpl.schedule,
        if_neg (by decide)] at stepped
      rw [← Option.some.inj stepped]
      exact inv.insertEvent fits _
  | scheduleWithContext context delay =>
      rw [← Option.some.inj stepped]
      exact inv.insertEvent fits _
  | scheduleDestroy =>
      rw [← Option.some.inj stepped]
      exact inv.scheduleDestroy
  | cancel id => exact inv.cancel stepped
  | remove id => exact inv.remove stepped

/-- A run whose steps all fit is orderly in every state that it passes. -/
theorem orderly_throughout (scheduler : Scheduler) (actions : List Action)
    (fits : Guarded step Fits (start scheduler) actions) :
    Throughout step Orderly (start scheduler) actions := by
  intro first second middle split ran
  have inv := throughout_of_guarded step_inv (Inv.initial scheduler) fits first second middle split ran
  exact inv.orderly

def mixed : List Action :=
  [.schedule 5, .scheduleNow, .scheduleWithContext 3 5, .processOneEvent, .scheduleNow,
    .cancel { impl := some 2, ts := 5, context := 3, uid := 6 }, .setScheduler listScheduler,
    .processOneEvent, .scheduleDestroy, .processOneEvent, .processOneEvent]

theorem orderly_throughout_mixed : Throughout step Orderly (start listScheduler) mixed :=
  orderly_throughout listScheduler mixed (by decide +kernel)

def idAt (index : ℕ) : EventId where
  impl := some index
  context := 0xffffffff
  uid := EventId.validUid + UInt32.ofNat index

/-- The state after this many events, each of them invoked before the next is scheduled. -/
def idle (count : ℕ) (currentUid : UInt32) : State where
  simulator :=
    { scheduler := listScheduler
      events := listScheduler.empty
      uid := EventId.validUid + UInt32.ofNat count
      currentUid
      eventCount := UInt64.ofNat count }
  impls := count
  scheduled := (List.range count).map idAt
  invoked := (List.range count).map idAt
  turns := (List.range count).map idAt

theorem idle_pair (count : ℕ) (currentUid : UInt32) :
    run step (idle count currentUid) [.scheduleNow, .processOneEvent] =
      some (idle (count + 1) (EventId.validUid + UInt32.ofNat count)) := by
  have uid : EventId.validUid + UInt32.ofNat count + 1 =
      EventId.validUid + UInt32.ofNat (count + 1) := by
    rw [UInt32.ofNat_add, UInt32.add_assoc]
    rfl
  have events : UInt64.ofNat count + 1 = UInt64.ofNat (count + 1) := by
    rw [UInt64.ofNat_add]
    rfl
  have balanced : (0 : Int32) + 1 - 1 = 0 := rfl
  have ran : run step (idle count currentUid) [.scheduleNow, .processOneEvent] =
      some { idle (count + 1) (EventId.validUid + UInt32.ofNat count) with
        simulator :=
          { (idle (count + 1) (EventId.validUid + UInt32.ofNat count)).simulator with
            uid := EventId.validUid + UInt32.ofNat count + 1
            eventCount := UInt64.ofNat count + 1
            unscheduledEvents := 0 + 1 - 1 }
        scheduled := (List.range count).map idAt ++ [idAt count]
        invoked := (List.range count).map idAt ++ [idAt count]
        turns := (List.range count).map idAt ++ [idAt count] } := rfl
  rw [ran, uid, events, balanced]
  simp [idle, List.range_succ]

theorem run_idle (count : ℕ) : ∃ currentUid,
    run step (start listScheduler) (List.replicate count [.scheduleNow, .processOneEvent]).flatten =
      some (idle count currentUid) := by
  induction count with
  | zero => exact ⟨0, rfl⟩
  | succ count ih =>
      obtain ⟨currentUid, ran⟩ := ih
      refine ⟨EventId.validUid + UInt32.ofNat count, ?_⟩
      rw [List.replicate_succ', List.flatten_append, List.flatten_singleton]
      exact run_append_some ran (idle_pair count currentUid)

theorem idle_wrapped (count : ℕ) (currentUid : UInt32)
    (wraps : EventId.validUid + UInt32.ofNat count = 0) :
    ∃ after, step (idle count currentUid) .scheduleNow = some after ∧ ¬ Orderly after := by
  refine ⟨(idle count currentUid).issue
    ((idle count currentUid).simulator.insertEvent 0xffffffff 0 count), rfl, ?_⟩
  intro orderly
  have expired := orderly.expired (idAt count)
    (List.mem_append_right _ (List.mem_singleton_self _))
  have isExpired : ((idle count currentUid).issue ((idle count currentUid).simulator.insertEvent
      0xffffffff 0 count)).simulator.isExpired (idAt count) = true := by
    have plain : (idAt count).uid ≠ EventId.destroyUid := by
      change EventId.validUid + UInt32.ofNat count ≠ EventId.destroyUid
      rw [wraps]
      decide
    rw [isExpired_iff plain rfl]
    left
    rintro (early | ⟨-, less⟩)
    · exact Nat.lt_irrefl 0 early
    · rw [idAt, wraps] at less
      exact Nat.not_lt_zero _ less
  rcases expired.mp isExpired with invoked | dropped
  · obtain ⟨index, below, same⟩ := List.mem_map.mp invoked
    have wrapped := Option.some.inj (congrArg EventId.impl same)
    rw [List.mem_range] at below
    omega
  · simp [State.issue, idle] at dropped

/-- The uid behind 2^32 - 1 is 0. -/
theorem wrappedUid_expired :
    ¬ Throughout step Orderly (start listScheduler)
      ((List.replicate (2 ^ 32 - 4) [.scheduleNow, .processOneEvent]).flatten ++
        [.scheduleNow]) := by
  intro orderly
  obtain ⟨currentUid, ran⟩ := run_idle (2 ^ 32 - 4)
  obtain ⟨after, stepped, disorderly⟩ := idle_wrapped (2 ^ 32 - 4) currentUid (by decide)
  have last : run step (idle (2 ^ 32 - 4) currentUid) [.scheduleNow] = some after := by
    rw [run_cons, stepped]
    rfl
  exact disorderly (orderly _ [] after (List.append_nil _).symm (run_append_some ran last))

end FISim.Events
