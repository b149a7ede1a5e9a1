import FISim.Common
import Mathlib.Data.List.Perm.Basic

/-!
The event queue: keys, the contract of a scheduler, and the list scheduler, which
keeps its events in the order of their keys.
-/

namespace FISim.Events

structure EventKey where
  ts : UInt64
  uid : UInt32
  context : UInt32
  deriving DecidableEq

def EventKey.before (first second : EventKey) : Bool :=
  if first.ts < second.ts then true
  else if first.ts = second.ts ∧ first.uid < second.uid then true
  else false

theorem EventKey.before_iff {first second : EventKey} :
    first.before second = true ↔
      first.ts.toNat < second.ts.toNat ∨
        first.ts.toNat = second.ts.toNat ∧ first.uid.toNat < second.uid.toNat := by
  rw [before, ← UInt64.lt_iff_toNat_lt, ← UInt32.lt_iff_toNat_lt, UInt64.toNat_inj]
  by_cases less : first.ts < second.ts
  · simp [less]
  · simp [less]

theorem EventKey.not_before_iff {first second : EventKey} :
    first.before second = false ↔
      ¬ (first.ts.toNat < second.ts.toNat ∨
        first.ts.toNat = second.ts.toNat ∧ first.uid.toNat < second.uid.toNat) := by
  rw [← before_iff, Bool.not_eq_true]

structure Event where
  impl : ℕ
  key : EventKey
  deriving DecidableEq

def DistinctUids (events : List Event) : Prop :=
  events.Pairwise fun first second => first.key.uid ≠ second.key.uid

/-- A scheduler, which always gives out an event that no other one is before. -/
structure Scheduler where
  Queue : Type
  empty : Queue
  isEmpty : Queue → Bool
  insert : Queue → Event → Queue
  removeNext : Queue → Option (Event × Queue)
  remove : Queue → Event → Option Queue
  queued : Queue → List Event
  queued_empty : queued empty = []
  isEmpty_iff : ∀ events, isEmpty events = true ↔ queued events = []
  queued_insert : ∀ events event, (queued (insert events event)).Perm (event :: queued events)
  removeNext_least : ∀ events, queued events ≠ [] → ∃ event rest,
    removeNext events = some (event, rest) ∧ (queued events).Perm (event :: queued rest) ∧
      ∀ other ∈ queued events, other.key.before event.key = false
  queued_remove : ∀ events event, event ∈ queued events → DistinctUids (queued events) →
    ∃ rest, remove events event = some rest ∧ (queued events).Perm (event :: queued rest)

namespace ListScheduler

def Sorted (events : List Event) : Prop :=
  events.Pairwise fun first second => second.key.before first.key = false

def insert (ev : Event) : List Event → List Event
  | [] => [ev]
  | i :: rest => if ev.key.before i.key then ev :: i :: rest else i :: insert ev rest

def remove (ev : Event) : List Event → Option (List Event)
  | [] => none
  | i :: rest =>
      if i.key.uid = ev.key.uid then
        if ev.impl = i.impl then some rest else none
      else (remove ev rest).map (i :: ·)

theorem insert_perm (ev : Event) (events : List Event) : (insert ev events).Perm (ev :: events) := by
  induction events with
  | nil => rfl
  | cons i rest ih =>
      rw [insert]
      split
      · rfl
      · exact (ih.cons i).trans (List.Perm.swap ev i rest)

theorem insert_sorted (ev : Event) {events : List Event} (sorted : Sorted events) :
    Sorted (insert ev events) := by
  induction events with
  | nil => exact List.pairwise_singleton _ _
  | cons i rest ih =>
      obtain ⟨first, later⟩ := List.pairwise_cons.mp sorted
      rw [insert]
      by_cases early : ev.key.before i.key = true
      · rw [if_pos early]
        refine List.pairwise_cons.mpr ⟨?_, sorted⟩
        intro other member
        rw [EventKey.before_iff] at early
        rcases List.mem_cons.mp member with rfl | behind
        · rw [EventKey.not_before_iff]
          omega
        · have ordered := first other behind
          rw [EventKey.not_before_iff] at ordered ⊢
          omega
      · rw [if_neg early]
        refine List.pairwise_cons.mpr ⟨?_, ih later⟩
        intro other member
        rcases List.mem_cons.mp ((insert_perm ev rest).mem_iff.mp member) with rfl | behind
        · simpa using early
        · exact first other behind

theorem remove_spec {ev : Event} {events : List Event} (member : ev ∈ events)
    (distinct : DistinctUids events) :
    ∃ rest, remove ev events = some rest ∧ events.Perm (ev :: rest) ∧ rest.Sublist events := by
  induction events with
  | nil => simp at member
  | cons i rest ih =>
      obtain ⟨first, later⟩ := List.pairwise_cons.mp distinct
      rcases List.mem_cons.mp member with rfl | behind
      · refine ⟨rest, ?_, List.Perm.refl _, List.sublist_cons_self _ _⟩
        simp [remove]
      · obtain ⟨left, removed, perm, sublist⟩ := ih behind later
        refine ⟨i :: left, ?_, ?_, sublist.cons_cons i⟩
        · simp [remove, first ev behind, removed]
        · exact (perm.cons i).trans (List.Perm.swap ev i left)

theorem sorted_remove {ev : Event} {events rest : List Event} (sorted : Sorted events)
    (removed : remove ev events = some rest) : Sorted rest := by
  refine sorted.sublist ?_
  clear sorted
  induction events generalizing rest with
  | nil => simp [remove] at removed
  | cons i later ih =>
      rw [remove] at removed
      split at removed
      · split at removed
        · rw [← Option.some.inj removed]
          exact List.sublist_cons_self _ _
        · simp at removed
      · obtain ⟨left, found, rfl⟩ := Option.map_eq_some_iff.mp removed
        exact (ih found).cons_cons i

end ListScheduler

def listScheduler : Scheduler where
  Queue := { events : List Event // ListScheduler.Sorted events }
  empty := ⟨[], List.Pairwise.nil⟩
  isEmpty events := events.val.isEmpty
  insert events event :=
    ⟨ListScheduler.insert event events.val, ListScheduler.insert_sorted event events.property⟩
  removeNext
    | ⟨[], _⟩ => none
    | ⟨next :: rest, sorted⟩ => some (next, ⟨rest, (List.pairwise_cons.mp sorted).2⟩)
  remove events event :=
    match removed : ListScheduler.remove event events.val with
    | none => none
    | some rest => some ⟨rest, ListScheduler.sorted_remove events.property removed⟩
  queued events := events.val
  queued_empty := rfl
  isEmpty_iff _ := List.isEmpty_iff
  queued_insert events event := ListScheduler.insert_perm event events.val
  removeNext_least events nonempty := by
    obtain ⟨events, sorted⟩ := events
    cases events with
    | nil => exact absurd rfl nonempty
    | cons next rest =>
        refine ⟨next, _, rfl, List.Perm.refl _, ?_⟩
        intro other member
        rcases List.mem_cons.mp member with rfl | behind
        · rw [EventKey.not_before_iff]
          omega
        · exact (List.pairwise_cons.mp sorted).1 other behind
  queued_remove events event member distinct := by
    obtain ⟨left, removed, perm, -⟩ := ListScheduler.remove_spec member distinct
    have sorted := ListScheduler.sorted_remove events.property removed
    refine ⟨⟨left, sorted⟩, ?_, perm⟩
    split
    · rename_i nothing
      simp [removed] at nothing
    · rename_i rest found
      have same := removed.symm.trans found
      simp only [Option.some.injEq] at same
      subst same
      rfl

end FISim.Events
