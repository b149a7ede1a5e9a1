import FISim.Events.Scheduler
import FISim.Lib.Transition
import Mathlib.Data.Prod.Lex

/-!
What a scheduler is for: whatever is asked of it, it holds the events that were
inserted and not yet removed, and gives out the least of them.
-/

namespace FISim.Events

open Transition

inductive Request
  | insert (ev : Event)
  | peekNext
  | removeNext
  | remove (ev : Event)
  deriving DecidableEq

/-- The events inserted and not yet removed, and the timestamp `RemoveNext` gave out last. -/
structure Pending where
  events : List Event
  lastTs : UInt64

namespace Pending

def start : Pending := ⟨[], 0⟩

def after (pending : Pending) : Request → Option Event → Pending
  | .insert ev, _ => { pending with events := ev :: pending.events }
  | .removeNext, some ev => ⟨pending.events.erase ev, ev.key.ts⟩
  | .remove ev, _ => { pending with events := pending.events.erase ev }
  | .peekNext, _ | .removeNext, none => pending

end Pending

def Least (events : List Event) (ev : Event) : Prop :=
  ev ∈ events ∧ ∀ other ∈ events, other.key.before ev.key = false

theorem Least.perm {events other : List Event} {ev : Event} (least : Least events ev)
    (perm : events.Perm other) : Least other ev :=
  ⟨perm.mem_iff.mp least.1, fun next member => least.2 next (perm.mem_iff.mpr member)⟩

theorem eq_of_uid {events : List Event} {first second : Event} (distinct : DistinctUids events)
    (isFirst : first ∈ events) (isSecond : second ∈ events)
    (same : first.key.uid = second.key.uid) : first = second := by
  by_contra different
  have symmetric : Std.Symm fun one two : Event => one.key.uid ≠ two.key.uid :=
    ⟨fun _ _ differ => differ.symm⟩
  exact distinct.forall isFirst isSecond different same

theorem perm_erase {events pending rest : List Event} {ev : Event} (perm : events.Perm pending)
    (taken : events.Perm (ev :: rest)) : rest.Perm (pending.erase ev) := by
  have erased := (taken.symm.trans perm).erase ev
  rwa [List.erase_cons_head] at erased

namespace Request

/-- Uids are distinct, and only queued events are asked for. -/
def Legal (pending : Pending) : Request → Prop
  | .insert ev => ∀ other ∈ pending.events, other.key.uid ≠ ev.key.uid
  | .peekNext | .removeNext => pending.events ≠ []
  | .remove ev => ev ∈ pending.events

instance (pending : Pending) : ∀ request : Request, Decidable (request.Legal pending)
  | .insert ev => inferInstanceAs (Decidable (∀ other ∈ pending.events, other.key.uid ≠ ev.key.uid))
  | .peekNext | .removeNext => inferInstanceAs (Decidable (pending.events ≠ []))
  | .remove ev => inferInstanceAs (Decidable (ev ∈ pending.events))

def Answered (pending : Pending) : Request → Option Event → Prop
  | .insert _, answer | .remove _, answer => answer = none
  | .peekNext, answer | .removeNext, answer => ∃ ev, answer = some ev ∧ Least pending.events ev

end Request

section Serving

variable {Queue : Type} {serve : Queue → Request → Option (Option Event × Queue)}
  {queued : Queue → List Event} {legal : Pending → Request → Prop}
  {guard : Queue → Request → Prop} {inv : Queue → Pending → Prop}

/-- Every legal request of the list is answered rightly, and what is queued is always what is
pending. -/
def Serves (serve : Queue → Request → Option (Option Event × Queue))
    (queued : Queue → List Event) (legal : Pending → Request → Prop) :
    Queue → Pending → List Request → Prop
  | queue, pending, [] => (queued queue).Perm pending.events
  | queue, pending, request :: rest =>
      (queued queue).Perm pending.events ∧
        (legal pending request → ∃ answer next, serve queue request = some (answer, next) ∧
          request.Answered pending answer ∧
          Serves serve queued legal next (pending.after request answer) rest)

def moves (serve : Queue → Request → Option (Option Event × Queue)) (queue : Queue)
    (request : Request) : Option Queue :=
  (serve queue request).map Prod.snd

theorem moves_eq {queue next : Queue} {request : Request} {answer : Option Event}
    (served : serve queue request = some (answer, next)) :
    moves serve queue request = some next := by
  rw [moves, served]
  rfl

theorem serves_of_guarded (holds : ∀ queue pending, inv queue pending →
      (queued queue).Perm pending.events)
    (keeps : ∀ queue pending request, inv queue pending → legal pending request →
      guard queue request → ∃ answer next, serve queue request = some (answer, next) ∧
        request.Answered pending answer ∧ inv next (pending.after request answer))
    {queue : Queue} {pending : Pending} {requests : List Request} (initial : inv queue pending)
    (guarded : Guarded (moves serve) guard queue requests) :
    Serves serve queued legal queue pending requests := by
  induction requests generalizing queue pending with
  | nil => exact holds queue pending initial
  | cons request rest ih =>
      refine ⟨holds queue pending initial, fun allowed => ?_⟩
      obtain ⟨answer, next, served, answered, kept⟩ :=
        keeps queue pending request initial allowed guarded.1
      exact ⟨answer, next, served, answered, ih kept (guarded.2 next (moves_eq served))⟩

def attempt (serve : Queue → Request → Option (Option Event × Queue))
    (legal : Pending → Request → Prop) [∀ pending request, Decidable (legal pending request)]
    (state : Queue × Pending) (request : Request) : Option (Queue × Pending) :=
  if legal state.2 request then
    (serve state.1 request).map fun served => (served.2, state.2.after request served.1)
  else none

theorem Serves.later [∀ pending request, Decidable (legal pending request)]
    {state reached : Queue × Pending} {first second : List Request}
    (ran : run (attempt serve legal) state first = some reached)
    (serves : Serves serve queued legal state.1 state.2 (first ++ second)) :
    Serves serve queued legal reached.1 reached.2 second := by
  induction first generalizing state with
  | nil =>
      simp only [run_nil, Option.some.injEq] at ran
      exact ran ▸ serves
  | cons request rest ih =>
      rw [run_cons] at ran
      obtain ⟨next, stepped, later⟩ := Option.bind_eq_some_iff.mp ran
      rw [attempt] at stepped
      split at stepped
      · rename_i allowed
        obtain ⟨answer, queue, served, -, continued⟩ := serves.2 allowed
        rw [served, Option.map_some, Option.some.injEq] at stepped
        subst stepped
        exact ih later continued
      · contradiction

end Serving

/-! Keys as pairs of numbers, which are in lexicographic order. -/

def Event.rank (ev : Event) : ℕ ×ₗ ℕ := toLex (ev.key.ts.toNat, ev.key.uid.toNat)

theorem before_iff_rank {first second : Event} :
    first.key.before second.key = true ↔ first.rank < second.rank := by
  rw [EventKey.before_iff, Event.rank, Event.rank, Prod.Lex.toLex_lt_toLex]

theorem before_eq_rank (first second : Event) :
    first.key.before second.key = decide (first.rank < second.rank) := by
  rw [Bool.eq_iff_iff, before_iff_rank, decide_eq_true_eq]

theorem least_iff_rank {events : List Event} {ev : Event} :
    Least events ev ↔ ev ∈ events ∧ ∀ other ∈ events, ev.rank ≤ other.rank := by
  simp only [Least, before_eq_rank, decide_eq_false_iff_not, not_lt]

end FISim.Events
