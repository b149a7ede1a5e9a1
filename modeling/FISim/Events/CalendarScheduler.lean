import FISim.Events.PriorityQueue
import Mathlib.Data.UInt

/-!
`CalendarScheduler`: events in an array of buckets, each bucket in the order of
its events' keys, or in the reverse order.  The bucket of an event is where its
timestamp falls, in steps of the width and modulo the number of buckets.
-/

namespace FISim.Events

def EventKey.behind (first second : EventKey) : Bool :=
  if first.ts > second.ts then true
  else if first.ts = second.ts ∧ first.uid > second.uid then true
  else false

theorem EventKey.behind_eq (first second : EventKey) : first.behind second = second.before first := by
  unfold behind before
  simp only [gt_iff_lt, eq_comm]

abbrev Bucket := List Event

namespace Bucket

/-- The `Order` that `SetReverse` chooses. -/
def order (reverse : Bool) (newEvent it : EventKey) : Bool :=
  if reverse then newEvent.behind it else newEvent.before it

/-- The `NextEvent` that `SetReverse` chooses. -/
def nextEvent (reverse : Bool) (bucket : Bucket) : Option Event :=
  if reverse then bucket.getLast? else bucket.head?

/-- The `Pop` that `SetReverse` chooses. -/
def pop (reverse : Bool) (bucket : Bucket) : Bucket :=
  if reverse then bucket.dropLast else bucket.tail

/-- The loop of `DoInsert`. -/
def insert (reverse : Bool) (ev : Event) : Bucket → Bucket
  | [] => [ev]
  | i :: rest => if order reverse ev.key i.key then ev :: i :: rest else i :: insert reverse ev rest

end Bucket

structure CalendarScheduler where
  buckets : List Bucket
  nBuckets : UInt32
  width : UInt64
  lastBucket : UInt32
  bucketTop : UInt64
  lastPrio : UInt64
  qSize : UInt32
  reverse : Bool
  deriving DecidableEq

namespace CalendarScheduler

def hash (scheduler : CalendarScheduler) (ts : UInt64) : UInt32 :=
  ((ts / scheduler.width) % scheduler.nBuckets.toUInt64).toUInt32

/-- New buckets; `m_qSize` and the order of the buckets stay. -/
def init (scheduler : CalendarScheduler) (nBuckets : UInt32) (width startPrio : UInt64) :
    CalendarScheduler :=
  let made := { scheduler with
    buckets := List.replicate nBuckets.toNat [], nBuckets, width, lastPrio := startPrio }
  { made with lastBucket := made.hash startPrio, bucketTop := (startPrio / width + 1) * width }

def create (reverse : Bool) : CalendarScheduler :=
  init { buckets := [], nBuckets := 0, width := 0, lastBucket := 0, bucketTop := 0, lastPrio := 0,
         qSize := 0, reverse } 2 1 0

def bucket (scheduler : CalendarScheduler) (i : UInt32) : Bucket :=
  scheduler.buckets.getD i.toNat []

def setBucket (scheduler : CalendarScheduler) (i : UInt32) (bucket : Bucket) : CalendarScheduler :=
  { scheduler with buckets := scheduler.buckets.set i.toNat bucket }

def doInsert (scheduler : CalendarScheduler) (ev : Event) : CalendarScheduler :=
  let i := scheduler.hash ev.key.ts
  scheduler.setBucket i (Bucket.insert scheduler.reverse ev (scheduler.bucket i))

def isEmpty (scheduler : CalendarScheduler) : Bool := scheduler.qSize = 0

/-- How the loop of `PeekNext` and `DoRemoveNext` ends: with an event below the top of its bucket,
or with the least of the buckets' next events. -/
inductive Found
  | below (i : UInt32) (bucketTop : UInt64) (next : Event)
  | least (minimum : Option (UInt32 × Event))
  deriving DecidableEq

/-- The loop, with a bound on its turns. -/
def search (scheduler : CalendarScheduler) :
    ℕ → UInt32 → UInt64 → EventKey → Option (UInt32 × Event) → Option Found
  | 0, _, _, _, _ => none
  | fuel + 1, i, bucketTop, minKey, minimum =>
      let further := fun (minKey : EventKey) (minimum : Option (UInt32 × Event)) =>
        let following := (i + 1) % scheduler.nBuckets
        if following ≠ scheduler.lastBucket then
          search scheduler fuel following (bucketTop + scheduler.width) minKey minimum
        else some (.least minimum)
      match Bucket.nextEvent scheduler.reverse (scheduler.bucket i) with
      | none => further minKey minimum
      | some next =>
          if next.key.ts < bucketTop then some (.below i bucketTop next)
          else if next.key.before minKey then further next.key (some (i, next))
          else further minKey minimum

def searchFrom (scheduler : CalendarScheduler) (minKey : EventKey) : Option Found :=
  scheduler.search scheduler.nBuckets.toNat scheduler.lastBucket scheduler.bucketTop minKey none

def latestKey : EventKey := ⟨0xffffffffffffffff, 0xffffffff, 0⟩

def peekNext (scheduler : CalendarScheduler) : Option Event :=
  if scheduler.isEmpty then none
  else do
    match ← scheduler.searchFrom latestKey with
    | .below _ _ next => return next
    | .least (some (_, next)) => return next
    | .least none => return ⟨0, latestKey⟩

def doRemoveNext (scheduler : CalendarScheduler) : Option (Event × CalendarScheduler) :=
  if scheduler.isEmpty then none
  else do
    match ← scheduler.searchFrom ⟨0xffffffffffffffff, 0, 0xffffffff⟩ with
    | .below i bucketTop next =>
        let moved := { scheduler with lastBucket := i, lastPrio := next.key.ts, bucketTop }
        return (next, moved.setBucket i (Bucket.pop scheduler.reverse (scheduler.bucket i)))
    | .least (some (minBucket, min)) =>
        let moved := { scheduler with
          lastPrio := min.key.ts
          lastBucket := scheduler.hash min.key.ts
          bucketTop := (min.key.ts / scheduler.width + 1) * scheduler.width }
        let next ← Bucket.nextEvent scheduler.reverse (scheduler.bucket minBucket)
        return (next,
          moved.setBucket minBucket (Bucket.pop scheduler.reverse (scheduler.bucket minBucket)))
    | .least none => none

/-- The first events of the queue. -/
def gather : ℕ → CalendarScheduler → Option (List Event × CalendarScheduler)
  | 0, scheduler => some ([], scheduler)
  | count + 1, scheduler => do
      let (next, scheduler) ← scheduler.doRemoveNext
      let (samples, scheduler) ← gather count scheduler
      return (next :: samples, scheduler)

def nSamples (qSize : UInt32) : UInt32 :=
  let count := if qSize ≤ 5 then qSize else 5 + qSize / 10
  if 25 < count then 25 else count

def separations : List Event → List UInt64
  | cur :: next :: rest => (next.key.ts - cur.key.ts) :: separations (next :: rest)
  | _ => []

def widthOf (nSamples : UInt32) (samples : List Event) : UInt64 :=
  let twiceAvg := (separations samples).sum / (nSamples - 1).toUInt64 * 2
  let totalSeparation := ((separations samples).filter fun diff => diff ≤ twiceAvg).sum
  max (totalSeparation * 3) 1

/-- The new width, and the queue after its samples are put back. -/
def calculateNewWidth (scheduler : CalendarScheduler) : Option (UInt64 × CalendarScheduler) :=
  if scheduler.qSize < 2 then some (1, scheduler)
  else do
    let count := nSamples scheduler.qSize
    let (samples, gathered) ← gather count.toNat scheduler
    let back := samples.foldl doInsert gathered
    return (widthOf count samples,
      { back with
        lastBucket := scheduler.lastBucket
        bucketTop := scheduler.bucketTop
        lastPrio := scheduler.lastPrio })

def doResize (scheduler : CalendarScheduler) (newSize : UInt32) (newWidth : UInt64) :
    CalendarScheduler :=
  scheduler.buckets.flatten.foldl doInsert (scheduler.init newSize newWidth scheduler.lastPrio)

def resize (scheduler : CalendarScheduler) (newSize : UInt32) : Option CalendarScheduler := do
  let (newWidth, scheduler) ← scheduler.calculateNewWidth
  return scheduler.doResize newSize newWidth

def resizeUp (scheduler : CalendarScheduler) : Option CalendarScheduler :=
  if scheduler.nBuckets * 2 < scheduler.qSize ∧ scheduler.nBuckets < 32768 then
    scheduler.resize (scheduler.nBuckets * 2)
  else some scheduler

def resizeDown (scheduler : CalendarScheduler) : Option CalendarScheduler :=
  if scheduler.qSize < scheduler.nBuckets / 2 then scheduler.resize (scheduler.nBuckets / 2)
  else some scheduler

def insert (scheduler : CalendarScheduler) (ev : Event) : Option CalendarScheduler :=
  let filed := scheduler.doInsert ev
  resizeUp { filed with qSize := filed.qSize + 1 }

def removeNext (scheduler : CalendarScheduler) : Option (Event × CalendarScheduler) := do
  let (ev, rest) ← scheduler.doRemoveNext
  return (ev, ← resizeDown { rest with qSize := rest.qSize - 1 })

/-- The loop of `Remove` is the one of the list scheduler, over one bucket. -/
def remove (scheduler : CalendarScheduler) (ev : Event) : Option CalendarScheduler :=
  if scheduler.isEmpty then none
  else do
    let i := scheduler.hash ev.key.ts
    let rest ← ListScheduler.remove ev (scheduler.bucket i)
    let removed := scheduler.setBucket i rest
    resizeDown { removed with qSize := removed.qSize - 1 }

def queued (scheduler : CalendarScheduler) : List Event := scheduler.buckets.flatten

def serve (scheduler : CalendarScheduler) :
    Request → Option (Option Event × CalendarScheduler)
  | .insert ev => (scheduler.insert ev).map (none, ·)
  | .peekNext => scheduler.peekNext.map fun next => (some next, scheduler)
  | .removeNext => scheduler.removeNext.map fun removed => (some removed.1, removed.2)
  | .remove ev => (scheduler.remove ev).map (none, ·)

/-- Timestamps are below 2^63 and no insert is earlier than the last removed timestamp. -/
def InTime (pending : Pending) : Request → Prop
  | .insert ev => ev.key.ts.toNat < 2 ^ 63 ∧ pending.lastTs ≤ ev.key.ts
  | _ => True

def Allowed (pending : Pending) (request : Request) : Prop :=
  request.Legal pending ∧ InTime pending request

instance (pending : Pending) : ∀ request, Decidable (InTime pending request)
  | .insert ev =>
      inferInstanceAs (Decidable (ev.key.ts.toNat < 2 ^ 63 ∧ pending.lastTs ≤ ev.key.ts))
  | .peekNext | .removeNext | .remove _ => isTrue trivial

instance (pending : Pending) (request : Request) : Decidable (Allowed pending request) :=
  inferInstanceAs (Decidable (_ ∧ _))

/-- An insert does not make 2^32 queued events, which `m_qSize` cannot count. -/
def Countable (scheduler : CalendarScheduler) : Request → Prop
  | .insert _ => scheduler.qSize.toNat + 1 < 2 ^ 32
  | _ => True

instance (scheduler : CalendarScheduler) : ∀ request, Decidable (Countable scheduler request)
  | .insert _ => inferInstanceAs (Decidable (scheduler.qSize.toNat + 1 < 2 ^ 32))
  | .peekNext | .removeNext | .remove _ => isTrue trivial

end CalendarScheduler

/-! One bucket. -/

namespace Bucket

def Arranged (reverse : Bool) (bucket : Bucket) : Prop :=
  bucket.Pairwise fun first second => order reverse second.key first.key = false

theorem order_eq_rank (reverse : Bool) (first second : Event) :
    order reverse first.key second.key =
      if reverse then decide (second.rank < first.rank) else decide (first.rank < second.rank) := by
  cases reverse with
  | false => exact before_eq_rank first second
  | true => exact (EventKey.behind_eq first.key second.key).trans (before_eq_rank second first)

theorem order_asymm {reverse : Bool} {first second : Event}
    (ahead : order reverse first.key second.key = true) :
    order reverse second.key first.key = false := by
  rw [order_eq_rank] at ahead ⊢
  cases reverse with
  | false => simpa using (of_decide_eq_true ahead).le
  | true => simpa using (of_decide_eq_true ahead).le

theorem order_trans {reverse : Bool} {first second third : Event}
    (one : order reverse second.key first.key = false)
    (two : order reverse third.key second.key = false) :
    order reverse third.key first.key = false := by
  rw [order_eq_rank] at one two ⊢
  cases reverse with
  | false =>
      simp only [Bool.false_eq_true, if_false, decide_eq_false_iff_not, not_lt] at one two ⊢
      exact one.trans two
  | true =>
      simp only [if_true, decide_eq_false_iff_not, not_lt] at one two ⊢
      exact two.trans one

theorem insert_perm (reverse : Bool) (ev : Event) (bucket : Bucket) :
    (insert reverse ev bucket).Perm (ev :: bucket) := by
  induction bucket with
  | nil => rfl
  | cons i rest ih =>
      rw [insert]
      split
      · rfl
      · exact (ih.cons i).trans (List.Perm.swap ev i rest)

theorem insert_arranged {reverse : Bool} (ev : Event) {bucket : Bucket}
    (arranged : Arranged reverse bucket) : Arranged reverse (insert reverse ev bucket) := by
  induction bucket with
  | nil => exact List.pairwise_singleton _ _
  | cons i rest ih =>
      obtain ⟨first, later⟩ := List.pairwise_cons.mp arranged
      rw [insert]
      by_cases ahead : order reverse ev.key i.key = true
      · rw [if_pos ahead]
        refine List.pairwise_cons.mpr ⟨?_, arranged⟩
        intro other member
        rcases List.mem_cons.mp member with rfl | behind
        · exact order_asymm ahead
        · exact order_trans (order_asymm ahead) (first other behind)
      · rw [if_neg ahead]
        refine List.pairwise_cons.mpr ⟨?_, ih later⟩
        intro other member
        rcases List.mem_cons.mp ((insert_perm reverse ev rest).mem_iff.mp member) with rfl | behind
        · exact eq_false_of_ne_true ahead
        · exact first other behind

theorem pop_sublist (reverse : Bool) (bucket : Bucket) : (pop reverse bucket).Sublist bucket := by
  cases reverse with
  | false => exact List.tail_sublist bucket
  | true => exact List.dropLast_sublist bucket

theorem nextEvent_spec {reverse : Bool} {bucket : Bucket} (arranged : Arranged reverse bucket)
    (nonempty : bucket ≠ []) :
    ∃ ev, nextEvent reverse bucket = some ev ∧ bucket.Perm (ev :: pop reverse bucket) ∧
      Least bucket ev := by
  cases reverse with
  | false =>
      obtain ⟨ev, rest, rfl⟩ := List.exists_cons_of_ne_nil nonempty
      refine ⟨ev, rfl, List.Perm.refl _, by simp, ?_⟩
      intro other member
      rcases List.mem_cons.mp member with rfl | behind
      · simp [before_eq_rank]
      · exact (List.pairwise_cons.mp arranged).1 other behind
  | true =>
      rcases List.eq_nil_or_concat bucket with rfl | ⟨rest, ev, rfl⟩
      · contradiction
      · rw [List.concat_eq_append] at arranged ⊢
        have popped : pop true (rest ++ [ev]) = rest := by simp [pop]
        refine ⟨ev, by simp [nextEvent], ?_, by simp, ?_⟩
        · rw [popped]
          exact List.perm_append_singleton ev rest
        · intro other member
          rcases List.mem_append.mp member with earlier | last
          · have ahead := (List.pairwise_append.mp arranged).2.2 other earlier ev (by simp)
            rw [order_eq_rank] at ahead
            rw [before_eq_rank]
            simpa using ahead
          · rw [List.mem_singleton.mp last]
            simp [before_eq_rank]

end Bucket

/-! The buckets. -/

namespace CalendarScheduler

/-- Every event of the list is in its bucket, and no other event is. -/
structure Filed (scheduler : CalendarScheduler) (events : List Event) : Prop where
  size : scheduler.buckets.length = scheduler.nBuckets.toNat
  positive : 0 < scheduler.nBuckets.toNat
  few : scheduler.nBuckets.toNat < 2 ^ 31
  wide : 0 < scheduler.width.toNat
  placed : ∀ i (bound : i < scheduler.buckets.length), ∀ ev ∈ scheduler.buckets[i],
    (scheduler.hash ev.key.ts).toNat = i
  arranged : ∀ bucket ∈ scheduler.buckets, Bucket.Arranged scheduler.reverse bucket
  perm : scheduler.queued.Perm events

theorem flatten_set_perm {buckets : List Bucket} {i : ℕ} (bound : i < buckets.length)
    (bucket : Bucket) :
    ((buckets.set i bucket).flatten ++ buckets[i]).Perm (buckets.flatten ++ bucket) := by
  induction buckets generalizing i with
  | nil => simp at bound
  | cons first rest ih =>
      cases i with
      | zero =>
          simp only [List.set_cons_zero, List.flatten_cons, List.getElem_cons_zero]
          have moved : (bucket ++ (rest.flatten ++ first)).Perm (first ++ rest.flatten ++ bucket) :=
            List.perm_append_comm.trans (List.perm_append_comm.append_right bucket)
          simpa [List.append_assoc] using moved
      | succ i =>
          simp only [List.set_cons_succ, List.flatten_cons, List.getElem_cons_succ,
            List.append_assoc]
          exact (ih (by simpa using bound)).append_left first

theorem hash_toNat {scheduler : CalendarScheduler} (positive : 0 < scheduler.nBuckets.toNat)
    (ts : UInt64) :
    (scheduler.hash ts).toNat = ts.toNat / scheduler.width.toNat % scheduler.nBuckets.toNat := by
  have small := Nat.mod_lt (ts.toNat / scheduler.width.toNat) positive
  have bound := scheduler.nBuckets.toNat_lt
  simp only [hash, UInt64.toNat_toUInt32, UInt64.toNat_mod, UInt64.toNat_div, UInt32.toNat_toUInt64]
  exact Nat.mod_eq_of_lt (by omega)

namespace Filed

variable {scheduler : CalendarScheduler} {events : List Event}

theorem hash_lt (filed : Filed scheduler events) (ts : UInt64) :
    (scheduler.hash ts).toNat < scheduler.buckets.length := by
  rw [hash_toNat filed.positive, filed.size]
  exact Nat.mod_lt _ filed.positive

theorem bucket_eq {i : UInt32} (bound : i.toNat < scheduler.buckets.length) :
    scheduler.bucket i = scheduler.buckets[i.toNat] := by
  simp [bucket, bound]

theorem mem_bucket (filed : Filed scheduler events) {i : UInt32}
    (bound : i.toNat < scheduler.nBuckets.toNat) {ev : Event} :
    ev ∈ scheduler.bucket i ↔ ev ∈ events ∧ scheduler.hash ev.key.ts = i := by
  have inside : i.toNat < scheduler.buckets.length := filed.size ▸ bound
  rw [bucket_eq inside, ← filed.perm.mem_iff, queued, List.mem_flatten]
  constructor
  · intro member
    refine ⟨⟨_, List.getElem_mem inside, member⟩, ?_⟩
    exact UInt32.toNat_inj.mp (filed.placed i.toNat inside ev member)
  · rintro ⟨⟨bucket, isBucket, member⟩, rfl⟩
    obtain ⟨place, placeBound, rfl⟩ := List.mem_iff_getElem.mp isBucket
    have same := filed.placed place placeBound ev member
    subst same
    exact member

theorem arranged_bucket (filed : Filed scheduler events) {i : UInt32}
    (bound : i.toNat < scheduler.nBuckets.toNat) :
    Bucket.Arranged scheduler.reverse (scheduler.bucket i) := by
  have inside : i.toNat < scheduler.buckets.length := filed.size ▸ bound
  rw [bucket_eq inside]
  exact filed.arranged _ (List.getElem_mem inside)

theorem setBucket (filed : Filed scheduler events) {i : UInt32} {bucket : Bucket}
    {rest : List Event} (bound : i.toNat < scheduler.nBuckets.toNat)
    (own : ∀ ev ∈ bucket, scheduler.hash ev.key.ts = i)
    (arranged : Bucket.Arranged scheduler.reverse bucket)
    (perm : (events ++ bucket).Perm (rest ++ scheduler.bucket i)) :
    Filed (scheduler.setBucket i bucket) rest := by
  have inside : i.toNat < scheduler.buckets.length := filed.size ▸ bound
  refine ⟨?_, filed.positive, filed.few, filed.wide, ?_, ?_, ?_⟩
  · exact List.length_set.trans filed.size
  · intro place placeBound ev member
    change (scheduler.hash ev.key.ts).toNat = place
    simp only [CalendarScheduler.setBucket, List.getElem_set] at member
    split at member
    · rename_i same
      rw [own ev member, same]
    · simp only [CalendarScheduler.setBucket, List.length_set] at placeBound
      exact filed.placed place placeBound ev member
  · intro other isBucket
    rcases List.mem_or_eq_of_mem_set isBucket with old | rfl
    · exact filed.arranged other old
    · exact arranged
  · have exchanged := flatten_set_perm inside bucket
    rw [← bucket_eq inside] at exchanged
    have before := filed.perm.append_right bucket
    exact (List.perm_append_right_iff _).mp ((exchanged.trans before).trans perm)

theorem doInsert (filed : Filed scheduler events) (ev : Event) :
    Filed (scheduler.doInsert ev) (ev :: events) := by
  have bound : (scheduler.hash ev.key.ts).toNat < scheduler.nBuckets.toNat :=
    filed.size ▸ filed.hash_lt ev.key.ts
  have inserted := Bucket.insert_perm scheduler.reverse ev
    (scheduler.bucket (scheduler.hash ev.key.ts))
  refine filed.setBucket bound ?_ (Bucket.insert_arranged ev (filed.arranged_bucket bound)) ?_
  · intro other member
    rcases List.mem_cons.mp (inserted.mem_iff.mp member) with rfl | behind
    · rfl
    · exact ((filed.mem_bucket bound).mp behind).2
  · have joined := inserted.append_left events
    exact joined.trans List.perm_middle

theorem take (filed : Filed scheduler events) {i : UInt32}
    (bound : i.toNat < scheduler.nBuckets.toNat) {ev : Event} {rest : Bucket}
    (taken : (scheduler.bucket i).Perm (ev :: rest)) (sublist : rest.Sublist (scheduler.bucket i)) :
    Filed (scheduler.setBucket i rest) (events.erase ev) := by
  have member : ev ∈ events :=
    ((filed.mem_bucket bound).mp (taken.mem_iff.mpr List.mem_cons_self)).1
  refine filed.setBucket bound ?_ ((filed.arranged_bucket bound).sublist sublist) ?_
  · intro other kept
    exact ((filed.mem_bucket bound).mp (sublist.subset kept)).2
  · have around := (List.perm_cons_erase member).append_right rest
    exact (around.trans List.perm_middle.symm).trans (taken.symm.append_left _)

theorem congr (filed : Filed scheduler events) {other : List Event} (perm : events.Perm other) :
    Filed scheduler other :=
  ⟨filed.size, filed.positive, filed.few, filed.wide, filed.placed, filed.arranged,
    filed.perm.trans perm⟩

theorem restart (filed : Filed scheduler events) (lastBucket : UInt32)
    (bucketTop lastPrio : UInt64) (qSize : UInt32) :
    Filed { scheduler with lastBucket, bucketTop, lastPrio, qSize } events :=
  ⟨filed.size, filed.positive, filed.few, filed.wide, filed.placed, filed.arranged, filed.perm⟩

theorem foldl_doInsert (filed : Filed scheduler events) (others : List Event) :
    Filed (others.foldl CalendarScheduler.doInsert scheduler) (others ++ events) := by
  induction others generalizing scheduler events with
  | nil => exact filed
  | cons ev rest ih => exact (ih (filed.doInsert ev)).congr List.perm_middle

theorem init {nBuckets : UInt32} {width : UInt64} (positive : 0 < nBuckets.toNat)
    (few : nBuckets.toNat < 2 ^ 31) (wide : 0 < width.toNat) (startPrio : UInt64) :
    Filed (scheduler.init nBuckets width startPrio) [] := by
  refine ⟨List.length_replicate, positive, few, wide, ?_, ?_, ?_⟩
  · intro i bound ev member
    simp [CalendarScheduler.init] at member
  · intro bucket member
    rw [List.eq_of_mem_replicate member]
    exact List.Pairwise.nil
  · simp [queued, CalendarScheduler.init]

end Filed

theorem foldl_doInsert_eq (scheduler : CalendarScheduler) (others : List Event) :
    ∃ buckets, others.foldl doInsert scheduler = { scheduler with buckets } := by
  induction others generalizing scheduler with
  | nil => exact ⟨scheduler.buckets, rfl⟩
  | cons ev rest ih =>
      obtain ⟨buckets, same⟩ := ih (scheduler.doInsert ev)
      exact ⟨buckets, same⟩

end CalendarScheduler

end FISim.Events
