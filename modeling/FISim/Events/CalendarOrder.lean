import FISim.Events.CalendarScheduler

/-!
The order in which `CalendarScheduler` gives out its events: the search goes
through the buckets from that of the last removed event on, one width after the
other, and no resize loses an event.
-/

namespace FISim.Events

open Transition

namespace CalendarScheduler

/-- The search starts at the timestamp that was removed last. -/
structure Timed (scheduler : CalendarScheduler) (events : List Event) : Prop where
  lastBucket : scheduler.lastBucket = scheduler.hash scheduler.lastPrio
  bucketTop : scheduler.bucketTop = (scheduler.lastPrio / scheduler.width + 1) * scheduler.width
  lastSmall : scheduler.lastPrio.toNat < 2 ^ 63
  early : ∀ ev ∈ events, scheduler.lastPrio.toNat ≤ ev.key.ts.toNat
  small : ∀ ev ∈ events, ev.key.ts.toNat < 2 ^ 63

/-- The number of the width that the event falls into, counted from time 0. -/
def slot (scheduler : CalendarScheduler) (ev : Event) : ℕ :=
  ev.key.ts.toNat / scheduler.width.toNat

def home (scheduler : CalendarScheduler) : ℕ :=
  scheduler.lastPrio.toNat / scheduler.width.toNat

theorem top_toNat {width : UInt64} (ts : UInt64) :
    ((ts / width + 1) * width).toNat =
      (ts.toNat / width.toNat + 1) * width.toNat % 2 ^ 64 := by
  simp only [UInt64.toNat_mul, UInt64.toNat_add, UInt64.toNat_div, UInt64.toNat_one]
  rw [Nat.mod_mul_mod]

/-- Where the search is after some turns. -/
structure At (scheduler : CalendarScheduler) (turn : ℕ) (i : UInt32) (bucketTop : UInt64) :
    Prop where
  bucket : i.toNat = (scheduler.home + turn) % scheduler.nBuckets.toNat
  top : bucketTop.toNat = (scheduler.home + turn + 1) * scheduler.width.toNat % 2 ^ 64

/-- No event falls into the widths that the search has passed. -/
def Cleared (scheduler : CalendarScheduler) (events : List Event) (turn : ℕ) : Prop :=
  ∀ ev ∈ events, scheduler.home + turn ≤ scheduler.slot ev

def Visited (scheduler : CalendarScheduler) (turn : ℕ) (ev : Event) : Prop :=
  ∃ earlier < turn, (scheduler.hash ev.key.ts).toNat =
    (scheduler.home + earlier) % scheduler.nBuckets.toNat

/-- The minimum so far is the least event of the buckets visited. -/
def Tracked (scheduler : CalendarScheduler) (events : List Event) (turn : ℕ) (minKey : EventKey) :
    Option (UInt32 × Event) → Prop
  | none => minKey.ts = 0xffffffffffffffff ∧ ∀ ev ∈ events, ¬ scheduler.Visited turn ev
  | some (i, least) => minKey = least.key ∧ least ∈ events ∧ i = scheduler.hash least.key.ts ∧
      Bucket.nextEvent scheduler.reverse (scheduler.bucket i) = some least ∧
      ∀ ev ∈ events, scheduler.Visited turn ev → ev.key.before least.key = false

def Leads (scheduler : CalendarScheduler) (events : List Event) : Found → Prop
  | .below i bucketTop next => i = scheduler.hash next.key.ts ∧
      bucketTop = (next.key.ts / scheduler.width + 1) * scheduler.width ∧
      Bucket.nextEvent scheduler.reverse (scheduler.bucket i) = some next ∧ Least events next
  | .least none => False
  | .least (some (i, next)) => i = scheduler.hash next.key.ts ∧
      Bucket.nextEvent scheduler.reverse (scheduler.bucket i) = some next ∧ Least events next

section Search

variable {scheduler : CalendarScheduler} {events : List Event} {turn : ℕ} {i : UInt32}
  {bucketTop : UInt64} {minKey : EventKey} {minimum : Option (UInt32 × Event)}

theorem hash_eq_slot (filed : Filed scheduler events) (ev : Event) :
    (scheduler.hash ev.key.ts).toNat = scheduler.slot ev % scheduler.nBuckets.toNat :=
  hash_toNat filed.positive ev.key.ts

theorem At.bound (here : At scheduler turn i bucketTop) (filed : Filed scheduler events) :
    i.toNat < scheduler.nBuckets.toNat := by
  rw [here.bucket]
  exact Nat.mod_lt _ filed.positive

theorem At.top_eq (here : At scheduler turn i bucketTop) (filed : Filed scheduler events)
    (timed : Timed scheduler events) (cleared : Cleared scheduler events turn) {ev : Event}
    (member : ev ∈ events) :
    bucketTop.toNat = (scheduler.home + turn + 1) * scheduler.width.toNat := by
  have wide := filed.wide
  have widthBound := scheduler.width.toNat_lt
  have small := timed.small ev member
  have ahead := cleared ev member
  have start : (scheduler.home + turn) * scheduler.width.toNat ≤ ev.key.ts.toNat :=
    (Nat.mul_le_mul_right _ ahead).trans (Nat.div_mul_le_self _ _)
  rw [here.top]
  refine Nat.mod_eq_of_lt ?_
  rw [Nat.add_mul, Nat.one_mul]
  rcases Nat.lt_or_ge (2 ^ 63) scheduler.width.toNat with huge | moderate
  · have none : scheduler.slot ev = 0 := Nat.div_eq_of_lt (by omega)
    have first : scheduler.home + turn = 0 := by omega
    rw [first]
    omega
  · omega

theorem Cleared.next (cleared : Cleared scheduler events turn) (filed : Filed scheduler events)
    (here : At scheduler turn i bucketTop)
    (later : ∀ ev ∈ scheduler.bucket i, scheduler.home + turn < scheduler.slot ev) :
    Cleared scheduler events (turn + 1) := by
  intro ev member
  have ahead := cleared ev member
  by_cases same : scheduler.slot ev = scheduler.home + turn
  · have isHere : scheduler.hash ev.key.ts = i := by
      apply UInt32.toNat_inj.mp
      rw [hash_eq_slot filed, same, here.bucket]
    have passed := later ev ((filed.mem_bucket (here.bound filed)).mpr ⟨member, isHere⟩)
    omega
  · omega

/-- A bucket whose next event is not below the bucket's top has no event of this turn. -/
theorem Cleared.passed (cleared : Cleared scheduler events turn) (filed : Filed scheduler events)
    (timed : Timed scheduler events) (here : At scheduler turn i bucketTop) {next : Event}
    (least : Least (scheduler.bucket i) next) (notBelow : ¬ next.key.ts < bucketTop) :
    Cleared scheduler events (turn + 1) := by
  have inEvents := ((filed.mem_bucket (here.bound filed)).mp least.1).1
  refine cleared.next filed here fun ev member => ?_
  have top := here.top_eq filed timed cleared inEvents
  have notBefore := least.2 ev member
  rw [UInt64.lt_iff_toNat_lt, top] at notBelow
  rw [EventKey.not_before_iff] at notBefore
  have later : (scheduler.home + turn + 1) * scheduler.width.toNat ≤ ev.key.ts.toNat := by omega
  exact (Nat.le_div_iff_mul_le filed.wide).mpr later

theorem At.next (here : At scheduler turn i bucketTop) (filed : Filed scheduler events) :
    At scheduler (turn + 1) ((i + 1) % scheduler.nBuckets) (bucketTop + scheduler.width) := by
  have bound := here.bound filed
  have few := filed.few
  constructor
  · have plain : (i + 1).toNat = i.toNat + 1 := by
      rw [UInt32.toNat_add, UInt32.toNat_one, Nat.mod_eq_of_lt (by omega)]
    rw [UInt32.toNat_mod, plain, here.bucket, Nat.mod_add_mod, Nat.add_assoc]
  · rw [UInt64.toNat_add, here.top, Nat.mod_add_mod]
    congr 1
    ring

theorem At.ends (here : At scheduler turn i bucketTop) (filed : Filed scheduler events)
    (timed : Timed scheduler events) (inside : turn ≤ scheduler.nBuckets.toNat)
    (moved : 0 < turn) : i = scheduler.lastBucket ↔ turn = scheduler.nBuckets.toNat := by
  rw [← UInt32.toNat_inj, here.bucket, timed.lastBucket, hash_toNat filed.positive]
  change (scheduler.home + turn) % _ = scheduler.home % _ ↔ _
  constructor
  · intro same
    have rest := Nat.sub_mod_eq_zero_of_mod_eq same
    rw [Nat.add_sub_cancel_left] at rest
    exact le_antisymm inside (Nat.le_of_dvd moved (Nat.dvd_of_mod_eq_zero rest))
  · intro last
    rw [last, Nat.add_mod_right]

theorem Visited.all (filed : Filed scheduler events) (ev : Event) :
    scheduler.Visited scheduler.nBuckets.toNat ev := by
  have positive := filed.positive
  have bound := Nat.mod_lt (scheduler.slot ev) positive
  have homeBound := Nat.mod_lt scheduler.home positive
  rw [Visited, hash_eq_slot filed]
  by_cases behind : scheduler.home % scheduler.nBuckets.toNat ≤
      scheduler.slot ev % scheduler.nBuckets.toNat
  · refine ⟨scheduler.slot ev % scheduler.nBuckets.toNat -
      scheduler.home % scheduler.nBuckets.toNat, by omega, ?_⟩
    rw [← Nat.mod_add_mod, Nat.add_sub_cancel' behind, Nat.mod_mod]
  · refine ⟨scheduler.nBuckets.toNat - (scheduler.home % scheduler.nBuckets.toNat -
      scheduler.slot ev % scheduler.nBuckets.toNat), by omega, ?_⟩
    rw [← Nat.mod_add_mod]
    have around : scheduler.home % scheduler.nBuckets.toNat + (scheduler.nBuckets.toNat -
        (scheduler.home % scheduler.nBuckets.toNat - scheduler.slot ev % scheduler.nBuckets.toNat)) =
          scheduler.slot ev % scheduler.nBuckets.toNat + scheduler.nBuckets.toNat := by
      omega
    rw [around, Nat.add_mod_right, Nat.mod_mod]

theorem visited_succ (here : At scheduler turn i bucketTop) {ev : Event} :
    scheduler.Visited (turn + 1) ev ↔
      scheduler.Visited turn ev ∨ scheduler.hash ev.key.ts = i := by
  rw [← UInt32.toNat_inj, here.bucket]
  constructor
  · rintro ⟨earlier, bound, same⟩
    rcases Nat.lt_succ_iff_lt_or_eq.mp bound with before | rfl
    · exact .inl ⟨earlier, before, same⟩
    · exact .inr same
  · rintro (⟨earlier, bound, same⟩ | same)
    · exact ⟨earlier, by omega, same⟩
    · exact ⟨turn, by omega, same⟩

theorem Tracked.skip (tracked : Tracked scheduler events turn minKey minimum)
    (filed : Filed scheduler events) (here : At scheduler turn i bucketTop)
    (none : scheduler.bucket i = []) : Tracked scheduler events (turn + 1) minKey minimum := by
  have same : ∀ ev ∈ events, scheduler.Visited (turn + 1) ev → scheduler.Visited turn ev := by
    intro ev member visited
    rcases (visited_succ here).mp visited with earlier | isHere
    · exact earlier
    · have inside := (filed.mem_bucket (here.bound filed)).mpr ⟨member, isHere⟩
      rw [none] at inside
      contradiction
  cases minimum with
  | none => exact ⟨tracked.1, fun ev member visited => tracked.2 ev member (same ev member visited)⟩
  | some least =>
      obtain ⟨key, inEvents, place, next, lowest⟩ := tracked
      exact ⟨key, inEvents, place, next, fun ev member visited =>
        lowest ev member (same ev member visited)⟩

theorem Tracked.keep (tracked : Tracked scheduler events turn minKey minimum)
    (filed : Filed scheduler events) (timed : Timed scheduler events)
    (here : At scheduler turn i bucketTop) {next : Event} (least : Least (scheduler.bucket i) next)
    (notLess : next.key.before minKey = false) :
    Tracked scheduler events (turn + 1) minKey minimum := by
  have bound := here.bound filed
  cases minimum with
  | none =>
      have small := timed.small next ((filed.mem_bucket bound).mp least.1).1
      have before : next.key.before minKey = true := by
        rw [EventKey.before_iff, tracked.1]
        left
        exact small.trans (by decide)
      rw [before] at notLess
      contradiction
  | some found =>
      obtain ⟨rfl, inEvents, place, taken, lowest⟩ := tracked
      refine ⟨rfl, inEvents, place, taken, ?_⟩
      intro ev member visited
      rcases (visited_succ here).mp visited with earlier | isHere
      · exact lowest ev member earlier
      · have notBelow := least.2 ev ((filed.mem_bucket bound).mpr ⟨member, isHere⟩)
        simp only [before_eq_rank, decide_eq_false_iff_not, not_lt] at notBelow notLess ⊢
        exact notLess.trans notBelow

theorem Tracked.improve (tracked : Tracked scheduler events turn minKey minimum)
    (filed : Filed scheduler events) (here : At scheduler turn i bucketTop) {next : Event}
    (taken : Bucket.nextEvent scheduler.reverse (scheduler.bucket i) = some next)
    (least : Least (scheduler.bucket i) next) (less : next.key.before minKey = true) :
    Tracked scheduler events (turn + 1) next.key (some (i, next)) := by
  have bound := here.bound filed
  obtain ⟨inEvents, place⟩ := (filed.mem_bucket bound).mp least.1
  refine ⟨rfl, inEvents, place.symm, taken, ?_⟩
  intro ev member visited
  rcases (visited_succ here).mp visited with earlier | isHere
  · cases minimum with
    | none => exact absurd earlier (tracked.2 ev member)
    | some found =>
        obtain ⟨rfl, -, -, -, lowest⟩ := tracked
        have notLess := lowest ev member earlier
        simp only [before_eq_rank, decide_eq_true_eq, decide_eq_false_iff_not, not_lt] at less notLess ⊢
        exact less.le.trans notLess
  · exact least.2 ev ((filed.mem_bucket bound).mpr ⟨member, isHere⟩)

theorem leads_below (filed : Filed scheduler events) (timed : Timed scheduler events)
    (here : At scheduler turn i bucketTop) (cleared : Cleared scheduler events turn) {next : Event}
    (taken : Bucket.nextEvent scheduler.reverse (scheduler.bucket i) = some next)
    (least : Least (scheduler.bucket i) next) (below : next.key.ts < bucketTop) :
    Leads scheduler events (.below i bucketTop next) := by
  have bound := here.bound filed
  have wide := filed.wide
  obtain ⟨inEvents, place⟩ := (filed.mem_bucket bound).mp least.1
  have top := here.top_eq filed timed cleared inEvents
  rw [UInt64.lt_iff_toNat_lt, top] at below
  have own : scheduler.slot next = scheduler.home + turn :=
    le_antisymm (Nat.lt_succ_iff.mp ((Nat.div_lt_iff_lt_mul wide).mpr below)) (cleared next inEvents)
  refine ⟨place.symm, ?_, taken, inEvents, ?_⟩
  · apply UInt64.toNat_inj.mp
    rw [top_toNat, here.top, ← own]
    rfl
  · intro other member
    by_cases same : scheduler.slot other = scheduler.home + turn
    · have isHere : scheduler.hash other.key.ts = i := by
        apply UInt32.toNat_inj.mp
        rw [hash_eq_slot filed, same, here.bucket]
      exact least.2 other ((filed.mem_bucket bound).mpr ⟨member, isHere⟩)
    · have ahead : scheduler.home + turn + 1 ≤ scheduler.slot other :=
        Nat.lt_of_le_of_ne (cleared other member) (Ne.symm same)
      have later : (scheduler.home + turn + 1) * scheduler.width.toNat ≤ other.key.ts.toNat :=
        (Nat.mul_le_mul_right _ ahead).trans (Nat.div_mul_le_self _ _)
      rw [EventKey.not_before_iff]
      omega

theorem leads_least (filed : Filed scheduler events) (nonempty : events ≠ [])
    (tracked : Tracked scheduler events scheduler.nBuckets.toNat minKey minimum) :
    Leads scheduler events (.least minimum) := by
  cases minimum with
  | none =>
      obtain ⟨ev, member⟩ := List.exists_mem_of_ne_nil _ nonempty
      exact tracked.2 ev member (Visited.all filed ev)
  | some found =>
      obtain ⟨-, inEvents, place, taken, lowest⟩ := tracked
      exact ⟨place, taken, inEvents, fun ev member => lowest ev member (Visited.all filed ev)⟩

theorem search_spec {fuel : ℕ} (turns : turn + fuel = scheduler.nBuckets.toNat) (more : 0 < fuel)
    (filed : Filed scheduler events) (timed : Timed scheduler events) (nonempty : events ≠ [])
    (here : At scheduler turn i bucketTop) (cleared : Cleared scheduler events turn)
    (tracked : Tracked scheduler events turn minKey minimum) :
    ∃ found, scheduler.search fuel i bucketTop minKey minimum = some found ∧
      Leads scheduler events found := by
  induction fuel generalizing turn i bucketTop minKey minimum with
  | zero => omega
  | succ fuel ih =>
      -- What is left to do after a turn that has not found an event below its bucket's top.
      have further : ∀ minKey minimum, Cleared scheduler events (turn + 1) →
          Tracked scheduler events (turn + 1) minKey minimum →
          ∃ found, (if (i + 1) % scheduler.nBuckets ≠ scheduler.lastBucket then
              scheduler.search fuel ((i + 1) % scheduler.nBuckets) (bucketTop + scheduler.width)
                minKey minimum
            else some (.least minimum)) = some found ∧ Leads scheduler events found := by
        intro minKey minimum cleared tracked
        have next := here.next filed
        have ends := next.ends filed timed (by omega) (by omega)
        by_cases last : (i + 1) % scheduler.nBuckets = scheduler.lastBucket
        · rw [if_neg (not_not.mpr last)]
          rw [ends.mp last] at tracked
          exact ⟨_, rfl, leads_least filed nonempty tracked⟩
        · rw [if_pos last]
          have notLast : turn + 1 ≠ scheduler.nBuckets.toNat := fun same => last (ends.mpr same)
          exact ih (by omega) (by omega) next cleared tracked
      rw [search]
      dsimp only
      by_cases none : scheduler.bucket i = []
      · have nothing : Bucket.nextEvent scheduler.reverse (scheduler.bucket i) = Option.none := by
          rw [none]
          cases scheduler.reverse <;> rfl
        rw [nothing]
        refine further minKey minimum (cleared.next filed here ?_) (tracked.skip filed here none)
        intro ev member
        rw [none] at member
        contradiction
      · have bound := here.bound filed
        obtain ⟨next, taken, -, least⟩ :=
          Bucket.nextEvent_spec (filed.arranged_bucket bound) none
        rw [taken]
        dsimp only
        by_cases below : next.key.ts < bucketTop
        · rw [if_pos below]
          exact ⟨_, rfl, leads_below filed timed here cleared taken least below⟩
        · rw [if_neg below]
          have passed := cleared.passed filed timed here least below
          by_cases less : next.key.before minKey = true
          · rw [if_pos less]
            exact further _ _ passed (tracked.improve filed here taken least less)
          · rw [if_neg less]
            exact further _ _ passed
              (tracked.keep filed timed here least (eq_false_of_ne_true less))

theorem searchFrom_spec (minKey : EventKey) (filed : Filed scheduler events)
    (timed : Timed scheduler events) (nonempty : events ≠ []) (latest : minKey.ts = 0xffffffffffffffff) :
    ∃ found, scheduler.searchFrom minKey = some found ∧ Leads scheduler events found := by
  refine search_spec (Nat.zero_add _) filed.positive filed timed nonempty ?_ ?_ ?_
  · constructor
    · rw [timed.lastBucket, hash_toNat filed.positive]
      rfl
    · rw [timed.bucketTop, top_toNat]
      rfl
  · intro ev member
    exact Nat.div_le_div_right (timed.early ev member)
  · refine ⟨latest, ?_⟩
    rintro ev - ⟨earlier, bound, -⟩
    omega

end Search

/-! Removing, resizing and the requests. -/

section Serving

variable {scheduler : CalendarScheduler} {events : List Event}

theorem isEmpty_eq_false (counted : 0 < scheduler.qSize.toNat) : scheduler.isEmpty = false := by
  refine decide_eq_false ?_
  intro zero
  rw [zero] at counted
  exact absurd counted (by decide)

theorem Timed.after_remove (timed : Timed scheduler events) {ev : Event} (least : Least events ev)
    (buckets : List Bucket) :
    Timed { scheduler with
      buckets
      lastBucket := scheduler.hash ev.key.ts
      bucketTop := (ev.key.ts / scheduler.width + 1) * scheduler.width
      lastPrio := ev.key.ts } (events.erase ev) := by
  refine ⟨rfl, rfl, timed.small ev least.1, ?_, ?_⟩
  · intro other member
    have notBefore := least.2 other (List.mem_of_mem_erase member)
    rw [EventKey.not_before_iff] at notBefore
    change ev.key.ts.toNat ≤ other.key.ts.toNat
    omega
  · exact fun other member => timed.small other (List.mem_of_mem_erase member)

theorem doRemoveNext_spec (filed : Filed scheduler events) (timed : Timed scheduler events)
    (nonempty : events ≠ []) (counted : 0 < scheduler.qSize.toNat) :
    ∃ ev buckets, scheduler.doRemoveNext = some (ev, { scheduler with
        buckets
        lastBucket := scheduler.hash ev.key.ts
        bucketTop := (ev.key.ts / scheduler.width + 1) * scheduler.width
        lastPrio := ev.key.ts }) ∧
      Least events ev ∧ Filed { scheduler with
        buckets
        lastBucket := scheduler.hash ev.key.ts
        bucketTop := (ev.key.ts / scheduler.width + 1) * scheduler.width
        lastPrio := ev.key.ts } (events.erase ev) := by
  obtain ⟨found, searched, leads⟩ := searchFrom_spec ⟨0xffffffffffffffff, 0, 0xffffffff⟩
    filed timed nonempty rfl
  have taken : ∀ ev, Bucket.nextEvent scheduler.reverse (scheduler.bucket (scheduler.hash ev.key.ts)) =
      some ev → Filed (scheduler.setBucket (scheduler.hash ev.key.ts)
        (Bucket.pop scheduler.reverse (scheduler.bucket (scheduler.hash ev.key.ts))))
          (events.erase ev) := by
    intro ev next
    have bound : (scheduler.hash ev.key.ts).toNat < scheduler.nBuckets.toNat :=
      filed.size ▸ filed.hash_lt ev.key.ts
    have some : scheduler.bucket (scheduler.hash ev.key.ts) ≠ [] := by
      intro none
      rw [none] at next
      cases reverse : scheduler.reverse <;> simp [Bucket.nextEvent, reverse] at next
    obtain ⟨other, first, perm, -⟩ := Bucket.nextEvent_spec (filed.arranged_bucket bound) some
    obtain rfl := Option.some.inj (next.symm.trans first)
    exact filed.take bound perm (Bucket.pop_sublist _ _)
  rw [doRemoveNext, isEmpty_eq_false counted, searched]
  rcases found with ⟨i, bucketTop, next⟩ | ⟨_ | ⟨i, next⟩⟩
  · obtain ⟨place, top, isNext, least⟩ := leads
    subst place top
    exact ⟨next, _, rfl, least, (taken next isNext).restart _ _ _ _⟩
  · exact leads.elim
  · obtain ⟨place, isNext, least⟩ := leads
    subst place
    refine ⟨next, (scheduler.setBucket (scheduler.hash next.key.ts) (Bucket.pop scheduler.reverse
      (scheduler.bucket (scheduler.hash next.key.ts)))).buckets, ?_, least,
        (taken next isNext).restart _ _ _ _⟩
    simp [isNext, setBucket]

theorem peekNext_spec (filed : Filed scheduler events) (timed : Timed scheduler events)
    (nonempty : events ≠ []) (counted : 0 < scheduler.qSize.toNat) :
    ∃ ev, scheduler.peekNext = some ev ∧ Least events ev := by
  obtain ⟨found, searched, leads⟩ := searchFrom_spec latestKey filed timed nonempty rfl
  rw [peekNext, isEmpty_eq_false counted, searched]
  rcases found with ⟨i, bucketTop, next⟩ | ⟨_ | ⟨i, next⟩⟩
  · obtain ⟨_, _, _, least⟩ := leads
    exact ⟨next, rfl, least⟩
  · exact leads.elim
  · obtain ⟨_, _, least⟩ := leads
    exact ⟨next, rfl, least⟩

theorem gather_spec {count : ℕ} (filed : Filed scheduler events) (timed : Timed scheduler events)
    (enough : count ≤ events.length) (counted : 0 < scheduler.qSize.toNat) :
    ∃ samples buckets lastBucket bucketTop lastPrio rest,
      gather count scheduler =
        some (samples, { scheduler with buckets, lastBucket, bucketTop, lastPrio }) ∧
      Filed { scheduler with buckets, lastBucket, bucketTop, lastPrio } rest ∧
      (samples ++ rest).Perm events := by
  induction count generalizing scheduler events with
  | zero =>
      exact ⟨[], scheduler.buckets, scheduler.lastBucket, scheduler.bucketTop, scheduler.lastPrio,
        events, rfl, filed, List.Perm.refl _⟩
  | succ count ih =>
      have nonempty : events ≠ [] := by
        rintro rfl
        simp at enough
      obtain ⟨ev, buckets, removed, least, left⟩ := doRemoveNext_spec filed timed nonempty counted
      have shorter : count ≤ (events.erase ev).length := by
        rw [List.length_erase_of_mem least.1]
        omega
      obtain ⟨samples, buckets', lastBucket, bucketTop, lastPrio, rest, gathered, kept, perm⟩ :=
        ih left (timed.after_remove least buckets) shorter counted
      refine ⟨ev :: samples, buckets', lastBucket, bucketTop, lastPrio, rest, ?_, kept, ?_⟩
      · rw [gather, removed]
        simp only [Option.bind_eq_bind, Option.bind_some, gathered]
        rfl
      · exact (perm.cons ev).trans (List.perm_cons_erase least.1).symm

theorem nSamples_le (qSize : UInt32) : (nSamples qSize).toNat ≤ qSize.toNat := by
  have bound := qSize.toNat_lt
  have least : ∀ count : UInt32, count.toNat ≤ qSize.toNat →
      (if 25 < count then 25 else count).toNat ≤ qSize.toNat := by
    intro count le
    split
    · rename_i many
      rw [UInt32.lt_iff_toNat_lt] at many
      exact many.le.trans le
    · exact le
  refine least _ ?_
  split
  · exact le_refl _
  · rename_i many
    have more : 5 < qSize.toNat := UInt32.lt_iff_toNat_lt.mp (UInt32.not_le.mp many)
    have sum : (5 + qSize / 10).toNat = (5 + qSize.toNat / 10) % 2 ^ 32 := by
      rw [UInt32.toNat_add, UInt32.toNat_div]
      rfl
    rw [sum]
    omega

theorem widthOf_pos (count : UInt32) (samples : List Event) : 0 < (widthOf count samples).toNat := by
  have positive : ∀ total : UInt64, 0 < (max total 1).toNat := by
    intro total
    have le : (1 : UInt64) ≤ max total 1 := by
      change 1 ≤ if total ≤ 1 then 1 else total
      split
      · exact UInt64.le_refl 1
      · rename_i more
        exact (UInt64.le_total 1 total).resolve_right more
    exact UInt64.le_iff_toNat_le.mp le
  exact positive _

theorem calculateNewWidth_spec (filed : Filed scheduler events) (timed : Timed scheduler events)
    (counted : scheduler.qSize.toNat = events.length) :
    ∃ width buckets, scheduler.calculateNewWidth = some (width, { scheduler with buckets }) ∧
      0 < width.toNat ∧ Filed { scheduler with buckets } events := by
  rw [calculateNewWidth]
  by_cases few : scheduler.qSize < 2
  · rw [if_pos few]
    exact ⟨1, scheduler.buckets, rfl, by decide, filed⟩
  · have two : 2 ≤ scheduler.qSize.toNat := UInt32.le_iff_toNat_le.mp (UInt32.not_lt.mp few)
    obtain ⟨samples, buckets, lastBucket, bucketTop, lastPrio, rest, gathered, kept, perm⟩ :=
      gather_spec filed timed (counted ▸ nSamples_le scheduler.qSize) (by omega)
    have back := (kept.foldl_doInsert samples).congr perm
    obtain ⟨refilled, same⟩ := foldl_doInsert_eq
      { scheduler with buckets, lastBucket, bucketTop, lastPrio } samples
    refine ⟨widthOf (nSamples scheduler.qSize) samples, refilled, ?_, widthOf_pos _ _, ?_⟩
    · rw [if_neg few]
      dsimp only
      rw [gathered]
      simp only [Option.bind_eq_bind, Option.bind_some, same]
      rfl
    · rw [same] at back
      exact back.restart scheduler.lastBucket scheduler.bucketTop scheduler.lastPrio scheduler.qSize

theorem resize_spec (newSize : UInt32) (filed : Filed scheduler events)
    (timed : Timed scheduler events) (counted : scheduler.qSize.toNat = events.length)
    (positive : 0 < newSize.toNat) (few : newSize.toNat < 2 ^ 31) :
    ∃ resized, scheduler.resize newSize = some resized ∧ Filed resized events ∧
      Timed resized events ∧ resized.qSize = scheduler.qSize ∧
      resized.lastPrio = scheduler.lastPrio := by
  obtain ⟨width, buckets, calculated, wide, kept⟩ := calculateNewWidth_spec filed timed counted
  have begun : Filed (init { scheduler with buckets } newSize width scheduler.lastPrio) [] :=
    Filed.init positive few wide scheduler.lastPrio
  have whole : (buckets.flatten ++ []).Perm events := by
    rw [List.append_nil]
    exact kept.perm
  have refilled := (begun.foldl_doInsert buckets.flatten).congr whole
  obtain ⟨others, same⟩ := foldl_doInsert_eq
    (init { scheduler with buckets } newSize width scheduler.lastPrio) buckets.flatten
  refine ⟨_, ?_, refilled, ?_, ?_, ?_⟩
  · rw [resize, calculated]
    rfl
  · rw [same]
    exact ⟨rfl, rfl, timed.lastSmall, timed.early, timed.small⟩
  · rw [same]
    rfl
  · rw [same]
    rfl

/-- The scheduler after it has perhaps been resized. -/
structure Settled (scheduler settled : CalendarScheduler) (events : List Event) : Prop where
  filed : Filed settled events
  timed : Timed settled events
  qSize : settled.qSize = scheduler.qSize
  lastPrio : settled.lastPrio = scheduler.lastPrio

theorem resizeUp_spec (filed : Filed scheduler events) (timed : Timed scheduler events)
    (counted : scheduler.qSize.toNat = events.length) :
    ∃ settled, scheduler.resizeUp = some settled ∧ Settled scheduler settled events := by
  have positive := filed.positive
  rw [resizeUp]
  split
  · rename_i full
    have small : scheduler.nBuckets.toNat < 32768 := UInt32.lt_iff_toNat_lt.mp full.2
    have doubled : (scheduler.nBuckets * 2).toNat = scheduler.nBuckets.toNat * 2 := by
      rw [UInt32.toNat_mul]
      exact Nat.mod_eq_of_lt (by simp only [UInt32.reduceToNat]; omega)
    obtain ⟨resized, made, kept, still, size, prio⟩ :=
      resize_spec (scheduler.nBuckets * 2) filed timed counted (by omega) (by omega)
    exact ⟨resized, made, kept, still, size, prio⟩
  · exact ⟨scheduler, rfl, filed, timed, rfl, rfl⟩

theorem resizeDown_spec (filed : Filed scheduler events) (timed : Timed scheduler events)
    (counted : scheduler.qSize.toNat = events.length) :
    ∃ settled, scheduler.resizeDown = some settled ∧ Settled scheduler settled events := by
  have few := filed.few
  have halved : (scheduler.nBuckets / 2).toNat = scheduler.nBuckets.toNat / 2 := UInt32.toNat_div _ _
  rw [resizeDown]
  split
  · rename_i sparse
    rw [UInt32.lt_iff_toNat_lt, halved] at sparse
    obtain ⟨resized, made, kept, still, size, prio⟩ :=
      resize_spec (scheduler.nBuckets / 2) filed timed counted (by omega) (by omega)
    exact ⟨resized, made, kept, still, size, prio⟩
  · exact ⟨scheduler, rfl, filed, timed, rfl, rfl⟩

end Serving

structure Sound (scheduler : CalendarScheduler) (pending : Pending) : Prop where
  filed : Filed scheduler pending.events
  timed : Timed scheduler pending.events
  counted : scheduler.qSize.toNat = pending.events.length
  last : scheduler.lastPrio = pending.lastTs
  distinct : DistinctUids pending.events

namespace Sound

variable {scheduler : CalendarScheduler} {pending : Pending}

theorem create (reverse : Bool) : Sound (create reverse) Pending.start := by
  refine ⟨?_, ⟨rfl, rfl, show (0 : UInt64).toNat < 2 ^ 63 by decide, ?_, ?_⟩, rfl, rfl,
    List.Pairwise.nil⟩
  · exact Filed.init (by decide) (by decide) (by decide) 0
  · simp [Pending.start]
  · simp [Pending.start]

theorem positive (sound : Sound scheduler pending) (nonempty : pending.events ≠ []) :
    0 < scheduler.qSize.toNat := by
  rw [sound.counted]
  exact List.length_pos_iff.mpr nonempty

theorem counted_erase (sound : Sound scheduler pending) {ev : Event} (member : ev ∈ pending.events) :
    (scheduler.qSize - 1).toNat = (pending.events.erase ev).length := by
  have positive := sound.positive (List.ne_nil_of_mem member)
  have one : (1 : UInt32) ≤ scheduler.qSize := UInt32.le_iff_toNat_le.mpr positive
  rw [UInt32.toNat_sub_of_le _ _ one, List.length_erase_of_mem member, sound.counted]
  rfl

theorem of_settled {settled : CalendarScheduler} (done : Settled scheduler settled pending.events)
    (counted : scheduler.qSize.toNat = pending.events.length)
    (last : scheduler.lastPrio = pending.lastTs) (distinct : DistinctUids pending.events) :
    Sound settled pending := by
  refine ⟨done.filed, done.timed, ?_, ?_, distinct⟩
  · rw [done.qSize]
    exact counted
  · rw [done.lastPrio]
    exact last

theorem timed_insert (sound : Sound scheduler pending) {ev : Event}
    (inTime : InTime pending (.insert ev)) :
    Timed { scheduler.doInsert ev with qSize := scheduler.qSize + 1 } (ev :: pending.events) := by
  refine ⟨sound.timed.lastBucket, sound.timed.bucketTop, sound.timed.lastSmall, ?_, ?_⟩
  · intro other member
    rcases List.mem_cons.mp member with rfl | behind
    · have notEarlier := UInt64.le_iff_toNat_le.mp inTime.2
      rwa [← sound.last] at notEarlier
    · exact sound.timed.early other behind
  · intro other member
    rcases List.mem_cons.mp member with rfl | behind
    · exact inTime.1
    · exact sound.timed.small other behind

theorem serve_spec (sound : Sound scheduler pending) {request : Request}
    (allowed : Allowed pending request) (countable : Countable scheduler request) :
    ∃ answer next, serve scheduler request = some (answer, next) ∧
      request.Answered pending answer ∧ Sound next (pending.after request answer) := by
  obtain ⟨legal, inTime⟩ := allowed
  cases request with
  | insert ev =>
      have counted : (scheduler.qSize + 1).toNat = (ev :: pending.events).length := by
        rw [UInt32.toNat_add, UInt32.toNat_one, Nat.mod_eq_of_lt countable, sound.counted,
          List.length_cons]
      have filed := (sound.filed.doInsert ev).restart scheduler.lastBucket scheduler.bucketTop
        scheduler.lastPrio (scheduler.qSize + 1)
      obtain ⟨next, made, settled⟩ := resizeUp_spec filed (sound.timed_insert inTime) counted
      refine ⟨none, next, congrArg (Option.map (none, ·)) made, rfl,
        of_settled settled counted sound.last ?_⟩
      exact List.pairwise_cons.mpr
        ⟨fun other member => (legal other member).symm, sound.distinct⟩
  | peekNext =>
      obtain ⟨ev, peeked, least⟩ :=
        peekNext_spec sound.filed sound.timed legal (sound.positive legal)
      exact ⟨some ev, scheduler, by simp [serve, peeked], ⟨ev, rfl, least⟩, sound⟩
  | removeNext =>
      obtain ⟨ev, buckets, removed, least, filed⟩ :=
        doRemoveNext_spec sound.filed sound.timed legal (sound.positive legal)
      have timed := sound.timed.after_remove least buckets
      obtain ⟨next, made, settled⟩ := resizeDown_spec
        (filed.restart _ _ _ (scheduler.qSize - 1))
        ⟨timed.lastBucket, timed.bucketTop, timed.lastSmall, timed.early, timed.small⟩
        (sound.counted_erase least.1)
      refine ⟨some ev, next, ?_, ⟨ev, rfl, least⟩, of_settled settled
        (sound.counted_erase least.1) rfl (sound.distinct.sublist List.erase_sublist)⟩
      simp only [serve, removeNext, removed, Option.bind_eq_bind, Option.bind_some, made]
      rfl
  | remove ev =>
      have bound : (scheduler.hash ev.key.ts).toNat < scheduler.nBuckets.toNat :=
        sound.filed.size ▸ sound.filed.hash_lt ev.key.ts
      have inside := (sound.filed.mem_bucket bound).mpr ⟨legal, rfl⟩
      have distinct : DistinctUids (scheduler.bucket (scheduler.hash ev.key.ts)) := by
        have all : DistinctUids scheduler.queued :=
          (sound.filed.perm.pairwise_iff fun differ => differ.symm).mpr sound.distinct
        refine all.sublist ?_
        rw [Filed.bucket_eq (sound.filed.size ▸ bound)]
        exact List.sublist_flatten_of_mem (List.getElem_mem _)
      obtain ⟨rest, removed, perm, sublist⟩ := ListScheduler.remove_spec inside distinct
      have filed := (sound.filed.take bound perm sublist).restart scheduler.lastBucket
        scheduler.bucketTop scheduler.lastPrio (scheduler.qSize - 1)
      obtain ⟨next, made, settled⟩ := resizeDown_spec filed
        ⟨sound.timed.lastBucket, sound.timed.bucketTop, sound.timed.lastSmall,
          fun other member => sound.timed.early other (List.mem_of_mem_erase member),
          fun other member => sound.timed.small other (List.mem_of_mem_erase member)⟩
        (sound.counted_erase legal)
      refine ⟨none, next, ?_, rfl, of_settled settled (sound.counted_erase legal) sound.last
        (sound.distinct.sublist List.erase_sublist)⟩
      rw [serve, remove, isEmpty_eq_false (sound.positive (List.ne_nil_of_mem legal))]
      simp only [Bool.false_eq_true, if_false, removed, Option.bind_eq_bind, Option.bind_some]
      exact congrArg (Option.map (none, ·)) made

end Sound

/-- A calendar scheduler that never holds 2^32 events is a priority queue. -/
theorem serves_of_countable (reverse : Bool) {requests : List Request}
    (guarded : Guarded (moves serve) Countable (create reverse) requests) :
    Serves serve queued Allowed (create reverse) Pending.start requests :=
  serves_of_guarded (fun _ _ sound => sound.filed.perm)
    (fun _ _ _ sound allowed countable => sound.serve_spec allowed countable)
    (Sound.create reverse) guarded

theorem serves_of_countable_three :
    Guarded (moves serve) Countable (create true)
        [.insert ⟨1, ⟨10, 4, 0⟩⟩, .insert ⟨2, ⟨10, 3, 0⟩⟩, .removeNext] ∧
      Serves serve queued Allowed (create true) Pending.start
        [.insert ⟨1, ⟨10, 4, 0⟩⟩, .insert ⟨2, ⟨10, 3, 0⟩⟩, .removeNext] := by
  have guarded : Guarded (moves serve) Countable (create true)
      [.insert ⟨1, ⟨10, 4, 0⟩⟩, .insert ⟨2, ⟨10, 3, 0⟩⟩, .removeNext] := by
    decide
  exact ⟨guarded, serves_of_countable true guarded⟩

/-! As many events as there are uids. -/

def crowdEvent (uid : ℕ) : Event := ⟨uid, ⟨0, UInt32.ofNat uid, 0⟩⟩

def crowd (count : ℕ) : List Request :=
  (List.range count).map fun uid => .insert (crowdEvent uid)

structure Crowded (scheduler : CalendarScheduler) (pending : Pending) (count : ℕ) : Prop where
  sound : Sound scheduler pending
  length : pending.events.length = count
  uids : ∀ ev ∈ pending.events, ev.key.uid.toNat < count
  lastTs : pending.lastTs = 0

theorem Crowded.allowed {scheduler : CalendarScheduler} {pending : Pending} {count : ℕ}
    (crowded : Crowded scheduler pending count) (bound : count < 2 ^ 32) :
    Allowed pending (.insert (crowdEvent count)) := by
  refine ⟨?_, show (0 : UInt64).toNat < 2 ^ 63 by decide, ?_⟩
  · intro other member same
    have less := crowded.uids other member
    have number : (crowdEvent count).key.uid.toNat = count := by
      change (UInt32.ofNat count).toNat = count
      rw [UInt32.toNat_ofNat']
      exact Nat.mod_eq_of_lt bound
    rw [same, number] at less
    omega
  · rw [crowded.lastTs]
    exact UInt64.le_refl 0

theorem run_crowd {count : ℕ} (bound : count < 2 ^ 32) :
    ∃ scheduler pending, run (attempt serve Allowed) (create false, Pending.start) (crowd count) =
      some (scheduler, pending) ∧ Crowded scheduler pending count := by
  induction count with
  | zero =>
      refine ⟨_, _, rfl, Sound.create false, rfl, ?_, rfl⟩
      simp [Pending.start]
  | succ count ih =>
      obtain ⟨scheduler, pending, ran, crowded⟩ := ih (by omega)
      have allowed := crowded.allowed (by omega)
      have countable : Countable scheduler (.insert (crowdEvent count)) := by
        change scheduler.qSize.toNat + 1 < 2 ^ 32
        rw [crowded.sound.counted, crowded.length]
        exact bound
      obtain ⟨answer, next, served, -, sound⟩ := crowded.sound.serve_spec allowed countable
      refine ⟨next, _, ?_, sound, ?_, ?_, crowded.lastTs⟩
      · rw [crowd, List.range_succ, List.map_append]
        refine run_append_some ran ?_
        simp [attempt, allowed, served]
      · change pending.events.length + 1 = count + 1
        rw [crowded.length]
      · intro ev member
        rcases List.mem_cons.mp member with rfl | behind
        · change (UInt32.ofNat count).toNat < count + 1
          rw [UInt32.toNat_ofNat']
          exact Nat.lt_succ_of_le (Nat.mod_le _ _)
        · exact (crowded.uids ev behind).trans (Nat.lt_succ_self count)

/-- With one event for each uid the count is 0 again, and the queue takes itself for empty. -/
theorem crowd_not_served {count : ℕ} (full : count + 1 = 2 ^ 32) :
    ¬ Serves serve queued Allowed (create false) Pending.start
      (crowd count ++ [.insert (crowdEvent count), .peekNext]) := by
  intro serves
  obtain ⟨scheduler, pending, ran, crowded⟩ := run_crowd (show count < 2 ^ 32 by omega)
  obtain ⟨-, inserting⟩ := Serves.later ran serves
  obtain ⟨answer, next, served, -, -, peeking⟩ := inserting (crowded.allowed (by omega))
  have wrapped : scheduler.qSize + 1 = 0 := by
    apply UInt32.toNat_inj.mp
    rw [UInt32.toNat_add, UInt32.toNat_one, crowded.sound.counted, crowded.length, full]
    rfl
  have notEmpty : scheduler.insert (crowdEvent count) =
      some { scheduler.doInsert (crowdEvent count) with qSize := 0 } := by
    have grown : insert scheduler (crowdEvent count) =
        resizeUp { scheduler.doInsert (crowdEvent count) with qSize := scheduler.qSize + 1 } := rfl
    have never : ∀ size : UInt32, ¬ size < 0 := fun size less =>
      absurd (UInt32.lt_iff_toNat_lt.mp less) (Nat.not_lt_zero _)
    rw [grown, wrapped, resizeUp, if_neg fun more => never _ more.1]
  rw [serve, notEmpty, Option.map_some, Option.some.injEq, Prod.mk.injEq] at served
  obtain ⟨-, rfl⟩ := served
  obtain ⟨answer, next, peeked, -⟩ := peeking ⟨List.cons_ne_nil _ _, trivial⟩
  simp [serve, peekNext, isEmpty] at peeked

theorem allUids_not_served :
    ¬ Serves serve queued Allowed (create false) Pending.start
      (crowd 4294967295 ++ [.insert (crowdEvent 4294967295), .peekNext]) :=
  crowd_not_served (by norm_num)

end CalendarScheduler

end FISim.Events
