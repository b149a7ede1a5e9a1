import FISim.Events.Scheduler
import FISim.Lib.Transition

/-!
`DefaultSimulatorImpl` on one thread: the event queue, the clock and the ids that
it gives out.
-/

namespace FISim.Events

open Transition

structure EventId where
  impl : Option ℕ := none
  ts : UInt64 := 0
  context : UInt32 := 0
  uid : UInt32 := 0
  deriving DecidableEq

namespace EventId

def invalidUid : UInt32 := 0
def destroyUid : UInt32 := 2
def validUid : UInt32 := 4

end EventId

structure DefaultSimulatorImpl where
  scheduler : Scheduler
  events : scheduler.Queue
  uid : UInt32 := EventId.validUid
  currentUid : UInt32 := EventId.invalidUid
  currentTs : UInt64 := 0
  currentContext : UInt32 := 0xffffffff
  eventCount : UInt64 := 0
  unscheduledEvents : Int32 := 0
  destroyEvents : List EventId := []
  -- `m_cancel` of every `EventImpl`
  cancelled : ℕ → Bool := fun _ => false

namespace DefaultSimulatorImpl

variable (simulator : DefaultSimulatorImpl)

/-- `while (!m_events->IsEmpty())`. -/
def moveEvents (source target : Scheduler) :
    ℕ → source.Queue → target.Queue → Option target.Queue
  | 0, _, _ => none
  | fuel + 1, events, moved =>
      if source.isEmpty events then some moved
      else
        match source.removeNext events with
        | none => none
        | some (next, rest) => moveEvents source target fuel rest (target.insert moved next)

def setScheduler (scheduler : Scheduler) : Option DefaultSimulatorImpl :=
  (moveEvents simulator.scheduler scheduler
    ((simulator.scheduler.queued simulator.events).length + 1) simulator.events
    scheduler.empty).map fun events => { simulator with scheduler, events }

/-- The new state, the event, and whether it is notified. -/
def processOneEvent : Option (DefaultSimulatorImpl × Event × Bool) :=
  match simulator.scheduler.removeNext simulator.events with
  | none => none
  | some (next, events) =>
      if next.key.ts < simulator.currentTs then none
      else
        some ({ simulator with
          events
          unscheduledEvents := simulator.unscheduledEvents - 1
          eventCount := simulator.eventCount + 1
          currentTs := next.key.ts
          currentContext := next.key.context
          currentUid := next.key.uid },
          next, !simulator.cancelled next.impl)

def insertEvent (context : UInt32) (tAbsolute : Int64) (event : ℕ) :
    DefaultSimulatorImpl × EventId :=
  let key : EventKey := { ts := tAbsolute.toUInt64, context, uid := simulator.uid }
  ({ simulator with
    uid := simulator.uid + 1
    unscheduledEvents := simulator.unscheduledEvents + 1
    events := simulator.scheduler.insert simulator.events { impl := event, key } },
    { impl := some event, ts := key.ts, context, uid := key.uid })

def schedule (delay : Int64) (event : ℕ) : Option (DefaultSimulatorImpl × EventId) :=
  if delay < 0 then none
  else
    let tAbsolute := delay + simulator.currentTs.toInt64
    some (simulator.insertEvent simulator.currentContext tAbsolute event)

def scheduleWithContext (context : UInt32) (delay : Int64) (event : ℕ) :
    DefaultSimulatorImpl × EventId :=
  let tAbsolute := delay + simulator.currentTs.toInt64
  simulator.insertEvent context tAbsolute event

def scheduleNow (event : ℕ) : Option (DefaultSimulatorImpl × EventId) := simulator.schedule 0 event

def scheduleDestroy (event : ℕ) : DefaultSimulatorImpl × EventId :=
  let id : EventId :=
    { impl := some event, ts := simulator.currentTs, context := 0xffffffff,
      uid := EventId.destroyUid }
  ({ simulator with
    destroyEvents := simulator.destroyEvents ++ [id], uid := simulator.uid + 1 }, id)

def isExpired (id : EventId) : Bool :=
  if id.uid = EventId.destroyUid then
    match id.impl with
    | none => true
    | some impl => simulator.cancelled impl || !simulator.destroyEvents.contains id
  else
    match id.impl with
    | none => true
    | some impl =>
        id.ts < simulator.currentTs ||
          (id.ts == simulator.currentTs && id.uid ≤ simulator.currentUid) ||
          simulator.cancelled impl

def remove (id : EventId) : Option DefaultSimulatorImpl :=
  if id.uid = EventId.destroyUid then
    some { simulator with destroyEvents := simulator.destroyEvents.erase id }
  else if simulator.isExpired id then some simulator
  else
    match id.impl with
    | none => none
    | some impl =>
        (simulator.scheduler.remove simulator.events
          { impl, key := { ts := id.ts, context := id.context, uid := id.uid } }).map fun events =>
            { simulator with
              events
              cancelled := Function.update simulator.cancelled impl true
              unscheduledEvents := simulator.unscheduledEvents - 1 }

def cancel (id : EventId) : Option DefaultSimulatorImpl :=
  if simulator.isExpired id then some simulator
  else id.impl.map fun impl =>
    { simulator with cancelled := Function.update simulator.cancelled impl true }

end DefaultSimulatorImpl

/-- The simulator, and what has been done with it. -/
structure State where
  simulator : DefaultSimulatorImpl
  -- the `EventImpl`s made so far
  impls : ℕ := 0
  -- history: the ids scheduled, those invoked, those whose turn has come, and those that were
  -- cancelled or removed before their turn
  scheduled : List EventId := []
  invoked : List EventId := []
  turns : List EventId := []
  dropped : List EventId := []
  destroys : List EventId := []

inductive Action
  | setScheduler (scheduler : Scheduler)
  | processOneEvent
  | schedule (delay : Int64)
  | scheduleNow
  | scheduleWithContext (context : UInt32) (delay : Int64)
  | scheduleDestroy
  | cancel (id : EventId)
  | remove (id : EventId)

def State.issue (before : State) (scheduled : DefaultSimulatorImpl × EventId) : State :=
  { before with
    simulator := scheduled.1
    impls := before.impls + 1
    scheduled := before.scheduled ++ [scheduled.2] }

def State.known (before : State) (id : EventId) : Prop :=
  id ∈ before.scheduled ∨ id ∈ before.destroys ∨ id = {}

instance (before : State) (id : EventId) : Decidable (before.known id) :=
  inferInstanceAs (Decidable (_ ∨ _))

def State.drop (before : State) (id : EventId) : List EventId :=
  if id ∈ before.scheduled ∧ id ∉ before.turns then before.dropped ++ [id] else before.dropped

def Event.id (event : Event) : EventId where
  impl := some event.impl
  ts := event.key.ts
  context := event.key.context
  uid := event.key.uid

/-- Every call makes an `EventImpl` of its own, and the ids passed back are ones given out. -/
def step (before : State) : Action → Option State
  | .setScheduler scheduler =>
      (before.simulator.setScheduler scheduler).map fun simulator => { before with simulator }
  | .processOneEvent =>
      if before.simulator.scheduler.isEmpty before.simulator.events then none
      else
        before.simulator.processOneEvent.map fun (simulator, next, notified) =>
          { before with
            simulator
            turns := before.turns ++ [next.id]
            invoked := before.invoked ++ if notified then [next.id] else [] }
  | .schedule delay => (before.simulator.schedule delay before.impls).map before.issue
  | .scheduleNow => (before.simulator.scheduleNow before.impls).map before.issue
  | .scheduleWithContext context delay =>
      some (before.issue (before.simulator.scheduleWithContext context delay before.impls))
  | .scheduleDestroy =>
      let (simulator, id) := before.simulator.scheduleDestroy before.impls
      some { before with
        simulator, impls := before.impls + 1, destroys := before.destroys ++ [id] }
  | .cancel id =>
      if before.known id then
        (before.simulator.cancel id).map fun simulator =>
          { before with simulator, dropped := before.drop id }
      else none
  | .remove id =>
      if before.known id then
        (before.simulator.remove id).map fun simulator =>
          { before with simulator, dropped := before.drop id }
      else none

def start (scheduler : Scheduler) : State where
  simulator := { scheduler, events := scheduler.empty }

namespace State

def queue (state : State) : List Event :=
  state.simulator.scheduler.queued state.simulator.events

def issues (state : State) : ℕ := state.scheduled.length + state.destroys.length

end State

/-- By time, and at one time by uid. -/
def EventId.Before (first second : EventId) : Prop :=
  first.ts.toNat < second.ts.toNat ∨
    first.ts.toNat = second.ts.toNat ∧ first.uid.toNat < second.uid.toNat

/-- In the order of time, and at one time in the order of scheduling. -/
def InOrder (scheduled : List EventId) (first second : EventId) : Prop :=
  first.ts < second.ts ∨ first.ts = second.ts ∧ [first, second].Sublist scheduled

structure Orderly (state : State) : Prop where
  ordered : state.invoked.Pairwise (InOrder state.scheduled)
  once : ∀ id ∈ state.scheduled, id ∉ state.dropped →
    id ∉ state.queue.map Event.id → state.invoked.count id = 1
  only : ∀ id ∈ state.invoked,
    id ∈ state.scheduled ∧ id ∉ state.dropped ∧ id ∉ state.queue.map Event.id
  expired : ∀ id ∈ state.scheduled,
    state.simulator.isExpired id = true ↔ id ∈ state.invoked ∨ id ∈ state.dropped
  counted : state.simulator.unscheduledEvents.toInt = state.queue.length

/-- The delay is not negative, the time stays within an `int64_t`, and neither the uids nor the
number of queued events have come to the end of their range. -/
structure Schedulable (before : State) (delay : Int64) : Prop where
  positive : 0 ≤ delay
  time : before.simulator.currentTs.toNat + delay.toInt.toNat < 2 ^ 63
  uids : EventId.validUid.toNat + before.issues < 2 ^ 32
  queue : before.queue.length < 2 ^ 31 - 1

instance (before : State) (delay : Int64) : Decidable (Schedulable before delay) :=
  decidable_of_iff
    (0 ≤ delay ∧ before.simulator.currentTs.toNat + delay.toInt.toNat < 2 ^ 63 ∧
      EventId.validUid.toNat + before.issues < 2 ^ 32 ∧ before.queue.length < 2 ^ 31 - 1)
    ⟨fun ⟨positive, time, uids, queue⟩ => ⟨positive, time, uids, queue⟩,
      fun fits => ⟨fits.positive, fits.time, fits.uids, fits.queue⟩⟩

def Fits (before : State) : Action → Prop
  | .schedule delay => Schedulable before delay
  | .scheduleNow => Schedulable before 0
  | .scheduleWithContext _ delay => Schedulable before delay
  | _ => True

instance (before : State) : ∀ action, Decidable (Fits before action)
  | .schedule delay => inferInstanceAs (Decidable (Schedulable before delay))
  | .scheduleNow => inferInstanceAs (Decidable (Schedulable before 0))
  | .scheduleWithContext _ delay => inferInstanceAs (Decidable (Schedulable before delay))
  | .setScheduler _ | .processOneEvent | .scheduleDestroy | .cancel _ | .remove _ => isTrue trivial

end FISim.Events
