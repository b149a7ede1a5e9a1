import FISim.AddressResolution.ArpL3Protocol
import FISim.Lib.Custody

/-!
What every call keeps of an interface: packets wait only for an address that was asked
for and not too long, and each of them is in one place.
-/

namespace FISim.Arp

variable {Pair : Type}

def pairsFor (dest : Ipv4Address) (pairs : List (Ipv4Address × Pair)) : List Pair :=
  (pairs.filter fun pair => pair.1 = dest).map Prod.snd

@[simp] theorem pairsFor_append (dest : Ipv4Address) (first second : List (Ipv4Address × Pair)) :
    pairsFor dest (first ++ second) = pairsFor dest first ++ pairsFor dest second := by
  rw [pairsFor, List.filter_append, List.map_append]
  rfl

@[simp] theorem pairsFor_nil (dest : Ipv4Address) : pairsFor dest ([] : List (Ipv4Address × Pair)) = [] :=
  rfl

theorem pairsFor_singleton (dest other : Ipv4Address) (pair : Pair) :
    pairsFor dest [(other, pair)] = if other = dest then [pair] else [] := by
  by_cases same : other = dest
  · simp [pairsFor, same]
  · simp [pairsFor, same]

theorem pairsFor_map (dest other : Ipv4Address) (pairs : List Pair) :
    pairsFor dest (pairs.map (Prod.mk other)) = if other = dest then pairs else [] := by
  induction pairs with
  | nil => simp
  | cons first rest ih =>
      rw [List.map_cons, ← List.singleton_append, pairsFor_append, pairsFor_singleton, ih]
      split <;> rfl

theorem pairsFor_gathered (cache : ArpCache Pair) (gather : Entry Pair → List Pair)
    (dest : Ipv4Address) :
    pairsFor dest (cache.arpCache.items.flatMap fun item =>
      (gather item.2).map (Prod.mk item.1)) = (cache.lookup dest).elim [] gather := by
  have gathered := cache.arpCache.gathered gather dest
  simp only [UInt32.toNat_inj] at gathered
  exact gathered

namespace Ipv4Interface

variable (interface : Ipv4Interface Pair) (dest : Ipv4Address)

def handedFor : List Pair := pairsFor dest interface.handed

def sentTo : List Pair := pairsFor dest (interface.sent.map fun record => (record.1, record.2.1))

def waitingFor : List Pair := (interface.cache.lookup dest).elim [] Entry.pending

/-- What is received by the node itself, dropped or lost. -/
def goneFor : List Pair :=
  pairsFor dest (interface.received ++ interface.dropped ++ interface.lost)

end Ipv4Interface

/-- An entry that waits has packets, not too many, and has been asked for; and the timer that runs
finds it before it is expired. -/
structure Waiting (station : Station) (timer : Option ℕ) (asked : Ipv4Address → Prop)
    (dest : Ipv4Address) (entry : Entry Pair) : Prop where
  holds : entry.pending ≠ []
  few : entry.pending.length ≤ max 1 station.attributes.pendingQueueSize
  retries : entry.retries ≤ station.attributes.maxRetries
  due : ∃ due, timer = some due ∧ due ≤ entry.lastSeen + station.attributes.waitReplyTimeout
  seen : entry.lastSeen ≤ entry.asked + entry.retries * station.attributes.waitReplyTimeout
  remote : station.isLocal dest = false ∧ station.hardwareDestination dest = none
  asked : asked dest

structure Idle (owns : Ipv4Address → Address → Prop) (dest : Ipv4Address) (entry : Entry Pair) :
    Prop where
  empty : entry.pending = []
  retries : entry.retries = 0
  known : entry.isDead = false → owns dest entry.macAddress

def EntrySound (station : Station) (owns : Ipv4Address → Address → Prop) (timer : Option ℕ)
    (asked : Ipv4Address → Prop) (dest : Ipv4Address) (entry : Entry Pair) : Prop :=
  if entry.isWaitReply then Waiting station timer asked dest entry else Idle owns dest entry

structure Inv (station : Station) (owns : Ipv4Address → Address → Prop)
    (requested : Ipv4Address → Prop) (now : ℕ) (interface : Ipv4Interface Pair) : Prop where
  entries : ∀ dest, ∀ entry ∈ interface.cache.lookup dest,
    EntrySound station owns interface.cache.waitReplyTimer
      (fun asked => asked ∈ interface.scheduled ∨ requested asked) dest entry
  timely : ∀ due ∈ interface.cache.waitReplyTimer, now ≤ due
  soon : ∀ due ∈ interface.cache.waitReplyTimer, due ≤ now + station.attributes.waitReplyTimeout
  resolved : ∀ record ∈ interface.sent,
    station.hardwareDestination record.1 = some record.2.2 ∨
      station.hardwareDestination record.1 = none ∧ owns record.1 record.2.2
  custody : ∀ dest, Custody (interface.handedFor dest) (interface.sentTo dest)
    (interface.waitingFor dest) (interface.goneFor dest)

section Sound

variable {station : Station} {owns : Ipv4Address → Address → Prop} {timer : Option ℕ}
  {asked : Ipv4Address → Prop} {dest : Ipv4Address} {entry : Entry Pair} {now : ℕ}

theorem EntrySound.waiting (sound : EntrySound station owns timer asked dest entry)
    (waits : entry.isWaitReply = true) : Waiting station timer asked dest entry := by
  rwa [EntrySound, if_pos waits] at sound

theorem EntrySound.idle (sound : EntrySound station owns timer asked dest entry)
    (idle : entry.isWaitReply = false) : Idle owns dest entry := by
  rwa [EntrySound, if_neg (by simp [idle])] at sound

theorem EntrySound.of_waiting (waits : entry.isWaitReply = true)
    (waiting : Waiting station timer asked dest entry) :
    EntrySound station owns timer asked dest entry := by
  rwa [EntrySound, if_pos waits]

theorem EntrySound.of_idle (rests : entry.isWaitReply = false) (idle : Idle owns dest entry) :
    EntrySound station owns timer asked dest entry := by
  rwa [EntrySound, if_neg (by simp [rests])]

theorem EntrySound.mono (sound : EntrySound station owns timer asked dest entry)
    {later : Option ℕ} {more : Ipv4Address → Prop} (runs : ∀ due ∈ timer, due ∈ later)
    (grows : asked dest → more dest) : EntrySound station owns later more dest entry := by
  cases waits : entry.isWaitReply with
  | true =>
      have waiting := sound.waiting waits
      obtain ⟨due, running, before⟩ := waiting.due
      exact .of_waiting waits ⟨waiting.holds, waiting.few, waiting.retries,
        ⟨due, runs due running, before⟩, waiting.seen, waiting.remote, grows waiting.asked⟩
  | false => exact .of_idle waits (sound.idle waits)

theorem Waiting.not_expired (waiting : Waiting station timer asked dest entry)
    (waits : entry.isWaitReply = true) (timely : ∀ due ∈ timer, now ≤ due) :
    entry.isExpired station.attributes now = false := by
  obtain ⟨due, running, before⟩ := waiting.due
  have early := timely due running
  rw [Entry.isWaitReply, decide_eq_true_eq] at waits
  rw [Entry.isExpired, Entry.getTimeout, waits]
  simp only [Option.any_some, decide_eq_false_iff_not]
  omega

theorem Waiting.bounded (waiting : Waiting station timer asked dest entry)
    (timely : ∀ due ∈ timer, now ≤ due) :
    now ≤ entry.asked +
      (station.attributes.maxRetries + 1) * station.attributes.waitReplyTimeout := by
  obtain ⟨due, running, before⟩ := waiting.due
  have early := timely due running
  have seen := waiting.seen
  have most := Nat.mul_le_mul_right station.attributes.waitReplyTimeout waiting.retries
  rw [Nat.add_mul]
  omega

theorem EntrySound.empty (sound : EntrySound station owns timer asked dest entry)
    (direct : ¬ (station.isLocal dest = false ∧ station.hardwareDestination dest = none)) :
    entry.pending = [] := by
  cases waits : entry.isWaitReply with
  | true => exact absurd (sound.waiting waits).remote direct
  | false => exact (sound.idle waits).empty

end Sound

namespace Ipv4Interface

variable {station : Station} {owns : Ipv4Address → Address → Prop}
  {requested : Ipv4Address → Prop} {interface : Ipv4Interface Pair} {now : ℕ} {pair : Pair}
  {dest : Ipv4Address}

/-- The interface after a packet has become the first that waits for its address. -/
def started (station : Station) (now : ℕ) (interface : Ipv4Interface Pair) (pair : Pair)
    (dest : Ipv4Address) (entry : Entry Pair) : Ipv4Interface Pair :=
  { interface with
    cache := (interface.cache.put dest { entry with
      state := .waitReply, pending := [pair], asked := now, lastSeen := now }).startWaitReplyTimer
        station.attributes now
    scheduled := interface.scheduled ++ [dest] }

inductive Looked (station : Station) (now : ℕ) (interface : Ipv4Interface Pair) (pair : Pair)
    (dest : Ipv4Address) : Ipv4Interface Pair → Option Address → Prop
  | known (entry : Entry Pair) (found : interface.cache.lookup dest = some entry)
      (idle : entry.isWaitReply = false) (live : entry.isDead = false) :
      Looked station now interface pair dest interface (some entry.macAddress)
  | refused :
      Looked station now interface pair dest
        { interface with dropped := interface.dropped ++ [(dest, pair)] } none
  | queued (entry : Entry Pair) (found : interface.cache.lookup dest = some entry)
      (waits : entry.isWaitReply = true)
      (room : entry.pending.length < station.attributes.pendingQueueSize) :
      Looked station now interface pair dest
        { interface with
          cache := interface.cache.put dest { entry with pending := entry.pending ++ [pair] } } none
  | started (entry : Entry Pair) (found : interface.waitingFor dest = []) (empty : entry.retries = 0) :
      Looked station now interface pair dest (interface.started station now pair dest entry) none

theorem startWaiting_eq {entry : Entry Pair} (live : entry.isAlive = true ∨ entry.isDead = true)
    (empty : entry.pending = []) :
    interface.startWaiting station now pair dest entry =
      some (interface.started station now pair dest entry) := by
  have waits : entry.markWaitReply now pair = some { entry with
      state := .waitReply, pending := [pair], asked := now, lastSeen := now } := by
    have allowed : ((entry.isAlive || entry.isDead) && entry.pending.isEmpty) = true := by
      rw [empty, Bool.and_eq_true, Bool.or_eq_true]
      exact ⟨live, rfl⟩
    rw [Entry.markWaitReply, if_pos allowed, empty]
    rfl
  rw [startWaiting, waits]
  rfl

/-- `Lookup` never comes to the code that should be unreachable. -/
theorem lookup_looked {asked : Ipv4Address → Prop}
    (entries : ∀ dest, ∀ entry ∈ interface.cache.lookup dest,
      EntrySound station owns interface.cache.waitReplyTimer asked dest entry)
    (timely : ∀ due ∈ interface.cache.waitReplyTimer, now ≤ due) (pair : Pair)
    (dest : Ipv4Address) :
    ∃ next found, interface.lookup station now pair dest = some (next, found) ∧
      Looked station now interface pair dest next found := by
  rw [lookup]
  cases known : interface.cache.lookup dest with
  | none =>
      refine ⟨_, _, by rw [startWaiting_eq (Or.inl rfl) rfl]; rfl, .started _ ?_ rfl⟩
      rw [waitingFor, known]
      rfl
  | some entry =>
      have sound := entries dest entry known
      dsimp only
      cases waits : entry.isWaitReply with
      | true =>
          have waiting := sound.waiting waits
          have notDead : entry.isDead = false := by
            rw [Entry.isWaitReply, decide_eq_true_eq] at waits
            simp [Entry.isDead, waits]
          have notAlive : entry.isAlive = false := by
            rw [Entry.isWaitReply, decide_eq_true_eq] at waits
            simp [Entry.isAlive, waits]
          rw [waiting.not_expired waits timely, notDead, notAlive, Entry.updateWaitReply, waits]
          by_cases full : station.attributes.pendingQueueSize ≤ entry.pending.length
          · simp only [if_pos full]
            exact ⟨_, _, rfl, .refused⟩
          · simp only [if_neg full]
            exact ⟨_, _, rfl, .queued entry known waits (Nat.lt_of_not_le full)⟩
      | false =>
          have idle := sound.idle waits
          have nothing : interface.waitingFor dest = [] := by
            rw [waitingFor, known]
            exact idle.empty
          cases dead : entry.isDead with
          | true =>
              by_cases expired : entry.isExpired station.attributes now = true
              · rw [if_pos expired, if_pos rfl, startWaiting_eq (Or.inr dead) idle.empty]
                exact ⟨_, _, rfl, .started entry nothing idle.retries⟩
              · rw [if_neg expired, if_pos rfl]
                exact ⟨_, _, rfl, .refused⟩
          | false =>
              by_cases expired : entry.isExpired station.attributes now = true
              · have alive : entry.isAlive = true := by
                  cases state : entry.state <;>
                    simp_all [Entry.isExpired, Entry.getTimeout, Entry.isAlive, Entry.isDead,
                      Entry.isWaitReply]
                rw [if_pos expired, if_neg (by simp), if_pos alive,
                  startWaiting_eq (Or.inl alive) idle.empty]
                exact ⟨_, _, rfl, .started entry nothing idle.retries⟩
              · rw [if_neg expired, if_neg (by simp)]
                refine ⟨interface, some entry.macAddress, ?_, .known entry known waits dead⟩
                split <;> rfl

theorem goneFor_eq (interface : Ipv4Interface Pair) (dest : Ipv4Address) :
    interface.goneFor dest = pairsFor dest interface.received ++ pairsFor dest interface.dropped ++
      pairsFor dest interface.lost := by
  rw [goneFor, pairsFor_append, pairsFor_append]

theorem custody_hand
    (custody : ∀ dest, Custody (interface.handedFor dest) (interface.sentTo dest)
      (interface.waitingFor dest) (interface.goneFor dest))
    {next : Ipv4Interface Pair} (handed : next.handed = interface.handed ++ [(dest, pair)])
    (here : Custody (interface.handedFor dest ++ [pair]) (next.sentTo dest)
      (next.waitingFor dest) (next.goneFor dest))
    (elsewhere : ∀ other, dest ≠ other → next.sentTo other = interface.sentTo other ∧
      next.waitingFor other = interface.waitingFor other ∧
        next.goneFor other = interface.goneFor other) :
    ∀ other, Custody (next.handedFor other) (next.sentTo other) (next.waitingFor other)
      (next.goneFor other) := by
  intro other
  rw [handedFor, handed, pairsFor_append, pairsFor_singleton]
  by_cases same : dest = other
  · subst same
    rw [if_pos rfl]
    exact here
  · obtain ⟨sent, waiting, gone⟩ := elsewhere other same
    rw [if_neg same, List.append_nil, sent, waiting, gone]
    exact custody other

theorem sentTo_append (interface : Ipv4Interface Pair) (other : Ipv4Address) (address : Address) :
    sentTo { interface with sent := interface.sent ++ [(dest, pair, address)] } other =
      interface.sentTo other ++ if dest = other then [pair] else [] := by
  rw [sentTo, sentTo, List.map_append, pairsFor_append]
  exact congrArg _ (pairsFor_singleton other dest pair)

@[simp] theorem lookup_startWaitReplyTimer (cache : ArpCache Pair) (attributes : Attributes) :
    (cache.startWaitReplyTimer attributes now).lookup dest = cache.lookup dest := by
  rw [ArpCache.startWaitReplyTimer]
  split <;> rfl

theorem timer_startWaitReplyTimer (cache : ArpCache Pair) (attributes : Attributes) :
    (cache.startWaitReplyTimer attributes now).waitReplyTimer =
      some (cache.waitReplyTimer.getD (now + attributes.waitReplyTimeout)) := by
  rw [ArpCache.startWaitReplyTimer]
  cases running : cache.waitReplyTimer with
  | none => rfl
  | some due => exact running

end Ipv4Interface

open Ipv4Interface

section Keeping

theorem perm_behind {α : Type} (before items after : List α) :
    (before ++ items ++ after).Perm (before ++ after ++ items) := by
  rw [List.append_assoc, List.append_assoc]
  exact List.perm_append_comm.append_left before

variable {station : Station} {owns : Ipv4Address → Address → Prop}
  {requested : Ipv4Address → Prop} {interface : Ipv4Interface Pair} {now : ℕ} {pair : Pair}
  {dest : Ipv4Address}

theorem Inv.sends (inv : Inv station owns requested now interface) {address : Address}
    (empty : interface.waitingFor dest = [])
    (right : station.hardwareDestination dest = some address ∨
      station.hardwareDestination dest = none ∧ owns dest address) :
    Inv station owns requested now
      { interface.hand pair dest with sent := interface.sent ++ [(dest, pair, address)] } := by
  refine ⟨inv.entries, inv.timely, inv.soon, ?_, custody_hand inv.custody rfl ?_ ?_⟩
  · intro record member
    rcases List.mem_append.mp member with before | new
    · exact inv.resolved record before
    · obtain rfl := List.mem_singleton.mp new
      exact right
  · have custody := (inv.custody dest).wait pair
    rw [empty, List.nil_append] at custody
    change Custody _ (sentTo { interface with sent := _ } dest) (interface.waitingFor dest) _
    rw [sentTo_append, if_pos rfl, empty]
    exact custody.deliver
  · intro other different
    refine ⟨?_, rfl, rfl⟩
    change sentTo { interface with sent := _ } other = _
    rw [sentTo_append, if_neg different, List.append_nil]

theorem Inv.refuses (inv : Inv station owns requested now interface)
    {received dropped lost : List (Ipv4Address × Pair)}
    (gone : (received ++ dropped ++ lost).Perm
      (interface.received ++ interface.dropped ++ interface.lost ++ [(dest, pair)])) :
    Inv station owns requested now
      { interface.hand pair dest with received, dropped, lost } := by
  have goes : ∀ other, (pairsFor other (received ++ dropped ++ lost)).Perm
      (interface.goneFor other ++ if dest = other then [pair] else []) := by
    intro other
    have perm := (gone.filter fun pair => pair.1 = other).map Prod.snd
    change (pairsFor other _).Perm (pairsFor other _) at perm
    rwa [pairsFor_append other _ [(dest, pair)], pairsFor_singleton] at perm
  refine ⟨inv.entries, inv.timely, inv.soon, inv.resolved, fun other => ?_⟩
  change Custody (pairsFor other (interface.handed ++ [(dest, pair)])) _ _ _
  rw [pairsFor_append, pairsFor_singleton]
  refine Custody.gone_perm ?_ (goes other).symm
  split
  · exact (inv.custody other).refuse pair
  · rw [List.append_nil, List.append_nil]
    exact inv.custody other

theorem Inv.queues (inv : Inv station owns requested now interface) {entry : Entry Pair}
    (found : interface.cache.lookup dest = some entry) (waits : entry.isWaitReply = true)
    (room : entry.pending.length < station.attributes.pendingQueueSize) :
    Inv station owns requested now { interface.hand pair dest with
      cache := interface.cache.put dest { entry with pending := entry.pending ++ [pair] } } := by
  have waiting := (inv.entries dest entry found).waiting waits
  refine ⟨?_, inv.timely, inv.soon, inv.resolved, custody_hand inv.custody rfl ?_ ?_⟩
  · intro other changed isChanged
    dsimp only at isChanged
    rw [ArpCache.lookup_put] at isChanged
    split at isChanged
    · rename_i same
      subst same
      obtain rfl := Option.some.inj isChanged
      refine .of_waiting waits
        ⟨?_, ?_, waiting.retries, waiting.due, waiting.seen, waiting.remote, waiting.asked⟩
      · simp
      · rw [List.length_append, List.length_singleton]
        omega
    · exact inv.entries other changed isChanged
  · have custody := (inv.custody dest).wait pair
    rw [waitingFor, found] at custody
    rw [waitingFor, ArpCache.lookup_put, if_pos rfl]
    exact custody
  · intro other different
    refine ⟨rfl, ?_, rfl⟩
    rw [waitingFor, ArpCache.lookup_put, if_neg (Ne.symm different)]
    rfl

theorem Inv.starts (inv : Inv station owns requested now interface) {entry : Entry Pair}
    (nothing : interface.waitingFor dest = []) (retries : entry.retries = 0)
    (remote : station.isLocal dest = false ∧ station.hardwareDestination dest = none) :
    Inv station owns requested now
      ((interface.hand pair dest).started station now pair dest entry) := by
  have timer : ((interface.hand pair dest).started station now pair dest entry).cache.waitReplyTimer =
      some (interface.cache.waitReplyTimer.getD (now + station.attributes.waitReplyTimeout)) :=
    timer_startWaitReplyTimer _ _
  have timely : now ≤ interface.cache.waitReplyTimer.getD (now + station.attributes.waitReplyTimeout) := by
    cases running : interface.cache.waitReplyTimer with
    | none => exact Nat.le_add_right _ _
    | some due => exact inv.timely due running
  have soon : interface.cache.waitReplyTimer.getD (now + station.attributes.waitReplyTimeout) ≤
      now + station.attributes.waitReplyTimeout := by
    cases running : interface.cache.waitReplyTimer with
    | none => exact Nat.le_refl _
    | some due => exact inv.soon due running
  refine ⟨?_, ?_, ?_, inv.resolved, custody_hand inv.custody rfl ?_ ?_⟩
  · intro other changed isChanged
    rw [timer]
    rw [started, lookup_startWaitReplyTimer, ArpCache.lookup_put] at isChanged
    split at isChanged
    · rename_i same
      subst same
      obtain rfl := Option.some.inj isChanged
      refine .of_waiting rfl ⟨List.cons_ne_nil _ _, Nat.le_max_left _ _, ?_, ⟨_, rfl, soon⟩,
        Nat.le_add_right _ _, remote, Or.inl (List.mem_append_right _ (List.mem_singleton_self _))⟩
      rw [retries]
      exact Nat.zero_le _
    · refine (inv.entries other changed isChanged).mono ?_ ?_
      · intro due running
        rw [Option.mem_def.mp running]
        rfl
      · exact Or.imp_left (List.mem_append_left _)
  · intro moment isDue
    rw [timer] at isDue
    exact Option.some.inj isDue ▸ timely
  · intro moment isDue
    rw [timer] at isDue
    exact Option.some.inj isDue ▸ soon
  · have custody := (inv.custody dest).wait pair
    rw [nothing] at custody
    rw [waitingFor, started, lookup_startWaitReplyTimer, ArpCache.lookup_put, if_pos rfl]
    exact custody
  · intro other different
    refine ⟨rfl, ?_, rfl⟩
    rw [waitingFor, started, lookup_startWaitReplyTimer, ArpCache.lookup_put,
      if_neg (Ne.symm different)]
    rfl

/-- A packet that is handed over is sent, received, dropped, lost or kept; nothing fails. -/
theorem Inv.send (inv : Inv station owns requested now interface) (pair : Pair)
    (dest : Ipv4Address) :
    ∃ next, (interface.hand pair dest).send station now pair dest = some next ∧
      Inv station owns requested now next := by
  rw [Ipv4Interface.send]
  by_cases up : interface.ifup = true
  · rw [if_neg (by simp [hand, up])]
    by_cases here : station.isLocal dest = true
    · rw [if_pos here]
      refine ⟨_, rfl, inv.refuses ?_⟩
      change (interface.received ++ [(dest, pair)] ++ interface.dropped ++ interface.lost).Perm _
      simpa only [List.append_assoc] using
        perm_behind interface.received [(dest, pair)] (interface.dropped ++ interface.lost)
    · rw [if_neg here]
      rw [Bool.not_eq_true] at here
      cases direct : station.hardwareDestination dest with
      | some address =>
          refine ⟨_, rfl, inv.sends ?_ (Or.inl direct)⟩
          rw [waitingFor]
          cases found : interface.cache.lookup dest with
          | none => rfl
          | some entry => exact (inv.entries dest entry found).empty (by simp [direct])
      | none =>
          have handed : ∀ other, ∀ entry ∈ (interface.hand pair dest).cache.lookup other,
              EntrySound station owns (interface.hand pair dest).cache.waitReplyTimer
                (fun asked => asked ∈ interface.scheduled ∨ requested asked) other entry :=
            inv.entries
          obtain ⟨next, found, looks, looked⟩ := lookup_looked handed inv.timely pair dest
          simp only [looks]
          cases looked with
          | known entry isEntry idle live =>
              have sound := (inv.entries dest entry isEntry).idle idle
              refine ⟨_, rfl, inv.sends ?_ (Or.inr ⟨direct, sound.known live⟩)⟩
              rw [waitingFor, show interface.cache.lookup dest = some entry from isEntry]
              exact sound.empty
          | refused =>
              refine ⟨_, rfl, inv.refuses ?_⟩
              change (interface.received ++ (interface.dropped ++ [(dest, pair)]) ++
                interface.lost).Perm _
              rw [← List.append_assoc interface.received]
              exact perm_behind _ _ interface.lost
          | queued entry isEntry waits room => exact ⟨_, rfl, inv.queues isEntry waits room⟩
          | started entry nothing retries =>
              exact ⟨_, rfl, inv.starts nothing retries ⟨here, direct⟩⟩
  · rw [if_pos (by simp [hand, up])]
    refine ⟨_, rfl, inv.refuses ?_⟩
    rw [List.append_assoc (interface.received ++ interface.dropped)]
    exact List.Perm.refl _

/-- What is left of an interface when all that waited for an address has been sent to it, or lost
because the interface is down. -/
structure Flushed (source : Ipv4Address) (entry : Entry Pair) (before after : Ipv4Interface Pair) :
    Prop where
  lookup : ∀ dest, after.cache.lookup dest =
    if dest = source then some entry.clearPendingPacket else before.cache.lookup dest
  timer : after.cache.waitReplyTimer = before.cache.waitReplyTimer
  scheduled : after.scheduled = before.scheduled
  handed : after.handed = before.handed
  received : after.received = before.received
  dropped : after.dropped = before.dropped
  ifup : after.ifup = before.ifup
  sent : after.sent = before.sent ++
    if before.ifup then entry.pending.map fun pair => (source, pair, entry.macAddress) else []
  lost : after.lost = before.lost ++
    if before.ifup then [] else entry.pending.map (Prod.mk source)

theorem Flushed.sentTo {source : Ipv4Address} {entry : Entry Pair} {after : Ipv4Interface Pair}
    (flushed : Flushed source entry interface after) (dest : Ipv4Address) :
    after.sentTo dest = interface.sentTo dest ++
      if interface.ifup ∧ source = dest then entry.pending else [] := by
  rw [Ipv4Interface.sentTo, flushed.sent, List.map_append, pairsFor_append]
  refine congrArg (interface.sentTo dest ++ ·) ?_
  by_cases up : interface.ifup = true
  · rw [if_pos up, List.map_map]
    refine (pairsFor_map dest source entry.pending).trans ?_
    simp only [up, true_and]
  · rw [if_neg up, if_neg (fun both => up both.1)]
    rfl

theorem Flushed.goneFor {source : Ipv4Address} {entry : Entry Pair} {after : Ipv4Interface Pair}
    (flushed : Flushed source entry interface after) (dest : Ipv4Address) :
    after.goneFor dest = interface.goneFor dest ++
      if ¬ interface.ifup ∧ source = dest then entry.pending else [] := by
  rw [goneFor_eq, goneFor_eq, flushed.received, flushed.dropped, flushed.lost, pairsFor_append,
    ← List.append_assoc]
  refine congrArg (pairsFor dest interface.received ++ pairsFor dest interface.dropped ++
    pairsFor dest interface.lost ++ ·) ?_
  by_cases up : interface.ifup = true
  · rw [if_pos up, if_neg (fun both => both.1 up)]
    rfl
  · rw [if_neg up]
    refine (pairsFor_map dest source entry.pending).trans ?_
    simp only [up, Bool.false_eq_true, not_false_eq_true, true_and]

theorem Flushed.behind {source : Ipv4Address} {entry : Entry Pair} {rest : List Pair}
    {middle after : Ipv4Interface Pair}
    (flushed : Flushed source { entry with pending := rest } middle after)
    (lookup : ∀ dest, dest ≠ source → middle.cache.lookup dest = interface.cache.lookup dest)
    (same : middle.cache.waitReplyTimer = interface.cache.waitReplyTimer ∧
      middle.scheduled = interface.scheduled ∧ middle.handed = interface.handed ∧
        middle.received = interface.received ∧ middle.dropped = interface.dropped ∧
          middle.ifup = interface.ifup)
    (sent : after.sent = interface.sent ++
      if interface.ifup then entry.pending.map fun pair => (source, pair, entry.macAddress) else [])
    (lost : after.lost = interface.lost ++
      if interface.ifup then [] else entry.pending.map (Prod.mk source)) :
    Flushed source entry interface after := by
  obtain ⟨timer, scheduled, handed, received, dropped, ifup⟩ := same
  refine ⟨fun dest => ?_, flushed.timer.trans timer, flushed.scheduled.trans scheduled,
    flushed.handed.trans handed, flushed.received.trans received, flushed.dropped.trans dropped,
    flushed.ifup.trans ifup, sent, lost⟩
  rw [flushed.lookup]
  split
  · rfl
  · rename_i different
    exact lookup dest different

theorem send_known (pair : Pair) {entry : Entry Pair} (remote : station.isLocal dest = false ∧
      station.hardwareDestination dest = none) (found : interface.cache.lookup dest = some entry)
    (alive : entry.isAlive = true) (fresh : entry.isExpired station.attributes now = false) :
    interface.send station now pair dest = some (if interface.ifup then
      { interface with sent := interface.sent ++ [(dest, pair, entry.macAddress)] }
    else { interface with lost := interface.lost ++ [(dest, pair)] }) := by
  have notDead : entry.isDead = false := by
    rw [Entry.isAlive, decide_eq_true_eq] at alive
    simp [Entry.isDead, alive]
  cases up : interface.ifup with
  | false => simp [Ipv4Interface.send, up]
  | true => simp [Ipv4Interface.send, up, remote.1, remote.2, Ipv4Interface.lookup, found, alive, fresh, notDead]

theorem sendPending_flushed {source : Ipv4Address} {entry : Entry Pair}
    (remote : station.isLocal source = false ∧ station.hardwareDestination source = none)
    (found : interface.cache.lookup source = some entry) (alive : entry.isAlive = true)
    (fresh : entry.isExpired station.attributes now = false) :
    ∃ after, sendPending station now source (entry.pending.length + 1) interface = some after ∧
      Flushed source entry interface after := by
  generalize waiting : entry.pending = pending
  induction pending generalizing entry interface with
  | nil =>
      refine ⟨interface, ?_, ?_⟩
      · simp [sendPending, found, Entry.dequeuePending, waiting]
      · have empty : entry.clearPendingPacket = entry := by
          rw [Entry.clearPendingPacket, ← waiting]
        refine ⟨fun dest => ?_, rfl, rfl, rfl, rfl, rfl, rfl, ?_, ?_⟩
        · split
          · rename_i same
            rw [same, found, empty]
          · rfl
        · rw [waiting, List.map_nil, ite_self, List.append_nil]
        · rw [waiting, List.map_nil, ite_self, List.append_nil]
  | cons pair rest ih =>
      let left : Entry Pair := { entry with pending := rest }
      let rested : Ipv4Interface Pair :=
        { interface with cache := interface.cache.put source left }
      have isLeft : rested.cache.lookup source = some left := by
        rw [ArpCache.lookup_put, if_pos rfl]
      have first := send_known pair remote isLeft alive fresh
      have dequeues : entry.dequeuePending = some (pair, left) := by
        rw [Entry.dequeuePending, waiting]
      have turn : sendPending station now source ((pair :: rest).length + 1) interface =
          (rested.send station now pair source).bind
            (sendPending station now source (rest.length + 1)) := by
        rw [List.length_cons, sendPending, found, Option.bind_eq_bind, Option.bind_some, dequeues]
        rfl
      have elsewhere : ∀ dest, dest ≠ source →
          rested.cache.lookup dest = interface.cache.lookup dest := by
        intro dest different
        rw [ArpCache.lookup_put, if_neg different]
      rw [turn, first]
      by_cases up : interface.ifup = true
      · let going : Ipv4Interface Pair :=
          { rested with sent := rested.sent ++ [(source, pair, left.macAddress)] }
        have still : going.cache.lookup source = some left := isLeft
        obtain ⟨after, goes, flushed⟩ := ih still alive fresh rfl
        refine ⟨after, by rw [if_pos up]; exact goes, flushed.behind elsewhere
          ⟨rfl, rfl, rfl, rfl, rfl, rfl⟩ ?_ ?_⟩
        · rw [flushed.sent, if_pos up, if_pos up, waiting, List.append_assoc]
          rfl
        · rw [flushed.lost, if_pos up, if_pos up]
      · let losing : Ipv4Interface Pair := { rested with lost := rested.lost ++ [(source, pair)] }
        have still : losing.cache.lookup source = some left := isLeft
        obtain ⟨after, goes, flushed⟩ := ih still alive fresh rfl
        refine ⟨after, by rw [if_neg up]; exact goes, flushed.behind elsewhere
          ⟨rfl, rfl, rfl, rfl, rfl, rfl⟩ ?_ ?_⟩
        · rw [flushed.sent, if_neg up, if_neg up]
        · rw [flushed.lost, if_neg up, if_neg up, waiting, List.append_assoc]
          rfl

def Entry.told (entry : Entry Pair) (now : ℕ) (macAddress : Address) : Entry Pair :=
  { entry with macAddress, state := .alive, retries := 0, lastSeen := now }

theorem Inv.flushed (inv : Inv station owns requested now interface) {source : Ipv4Address}
    {macAddress : Address} {entry : Entry Pair} (found : interface.cache.lookup source = some entry)
    (waits : entry.isWaitReply = true) (right : owns source macAddress)
    {next : Ipv4Interface Pair}
    (flushed : Flushed source (entry.told now macAddress)
      { interface with cache := interface.cache.put source (entry.told now macAddress) } next) :
    Inv station owns requested now next := by
  have remote := ((inv.entries source entry found).waiting waits).remote
  have elsewhere : ∀ dest, dest ≠ source → next.cache.lookup dest = interface.cache.lookup dest := by
    intro dest different
    rw [flushed.lookup, if_neg different, ArpCache.lookup_put, if_neg different]
  have here : next.cache.lookup source = some (entry.told now macAddress).clearPendingPacket := by
    rw [flushed.lookup, if_pos rfl]
  refine ⟨?_, ?_, ?_, ?_, ?_⟩
  · intro dest changed isChanged
    rw [flushed.timer, flushed.scheduled]
    by_cases same : dest = source
    · subst same
      obtain rfl := Option.some.inj (here.symm.trans isChanged)
      exact .of_idle rfl ⟨rfl, rfl, fun _ => right⟩
    · rw [elsewhere dest same] at isChanged
      exact inv.entries dest changed isChanged
  · rw [flushed.timer]
    exact inv.timely
  · rw [flushed.timer]
    exact inv.soon
  · intro record member
    rw [flushed.sent] at member
    rcases List.mem_append.mp member with before | new
    · exact inv.resolved record before
    · split at new
      · obtain ⟨pair, -, rfl⟩ := List.mem_map.mp new
        exact Or.inr ⟨remote.2, right⟩
      · cases new
  · intro dest
    have custody := inv.custody dest
    have sent : next.sentTo dest = interface.sentTo dest ++
        if interface.ifup ∧ source = dest then entry.pending else [] := flushed.sentTo dest
    have gone : next.goneFor dest = interface.goneFor dest ++
        if ¬ interface.ifup ∧ source = dest then entry.pending else [] := flushed.goneFor dest
    rw [handedFor, flushed.handed, sent, gone, waitingFor]
    by_cases same : dest = source
    · subst same
      rw [waitingFor, found] at custody
      rw [here]
      by_cases up : interface.ifup = true
      · rw [if_pos ⟨up, rfl⟩, if_neg (fun down => down.1 up), List.append_nil]
        exact custody.deliverAll
      · rw [if_neg (fun isUp => up isUp.1), if_pos ⟨up, rfl⟩, List.append_nil]
        exact custody.loseAll
    · rw [elsewhere dest same, if_neg (fun both => same both.2.symm),
        if_neg (fun both => same both.2.symm), List.append_nil, List.append_nil]
      exact custody

theorem receive_reply (inv : Inv station owns requested now interface) {arp : ArpHeader}
    {entry : Entry Pair} (isReply : arp.isReply = true) (here : station.isLocal arp.ipv4Dest = true)
    (mine : arp.macDest = station.getAddress)
    (found : interface.cache.lookup arp.ipv4Source = some entry) (waits : entry.isWaitReply = true) :
    ∃ next, interface.receive station now arp = some (next, []) ∧
      Flushed arp.ipv4Source (entry.told now arp.macSource) { interface with
        cache := interface.cache.put arp.ipv4Source (entry.told now arp.macSource) } next := by
  have remote := ((inv.entries _ entry found).waiting waits).remote
  have notRequest : arp.isRequest = false := by
    rw [ArpHeader.isReply, decide_eq_true_eq] at isReply
    rw [ArpHeader.isRequest, isReply]
    rfl
  have alive : entry.markAlive now arp.macSource = some (entry.told now arp.macSource) := by
    rw [Entry.markAlive, if_pos waits]
    rfl
  have fresh : (entry.told now arp.macSource).isExpired station.attributes now = false := by
    simp [Entry.isExpired, Entry.getTimeout, Entry.told]
  let known : Ipv4Interface Pair := { interface with
    cache := interface.cache.put arp.ipv4Source (entry.told now arp.macSource) }
  have isKnown : known.cache.lookup arp.ipv4Source = some (entry.told now arp.macSource) := by
    rw [ArpCache.lookup_put, if_pos rfl]
  obtain ⟨next, goes, flushed⟩ := sendPending_flushed remote isKnown rfl fresh
  refine ⟨next, ?_, flushed⟩
  have accepted : (station.ifaddrs.any fun address =>
      arp.isReply && arp.ipv4Dest = address.getLocal && arp.macDest = station.getAddress) = true := by
    simpa [isReply, mine, Station.isLocal] using here
  rw [Ipv4Interface.receive, if_neg (by simp [notRequest]), if_pos accepted, found]
  dsimp only
  rw [if_pos waits, alive, Option.bind_eq_bind, Option.bind_some]
  exact congrArg (Option.bind · fun next => some (next, [])) goes

theorem Inv.receive (inv : Inv station owns requested now interface) {arp : ArpHeader}
    (honest : arp.isReply = true → owns arp.ipv4Source arp.macSource) :
    ∃ next replies, interface.receive station now arp = some (next, replies) ∧
      Inv station owns requested now next ∧ ∀ reply ∈ replies,
        reply = station.sendArpReply arp.ipv4Dest arp.ipv4Source arp.macSource ∧
          station.isLocal arp.ipv4Dest = true := by
  by_cases asked : (station.ifaddrs.any fun address =>
      arp.isRequest && arp.ipv4Dest = address.getLocal) = true
  · refine ⟨interface, _, by rw [Ipv4Interface.receive, if_pos asked], inv, ?_⟩
    intro reply member
    refine ⟨List.mem_singleton.mp member, ?_⟩
    obtain ⟨address, known, same⟩ := List.any_eq_true.mp asked
    exact List.any_eq_true.mpr ⟨address, known, (Bool.and_eq_true_iff.mp same).2⟩
  · by_cases accepted : (station.ifaddrs.any fun address =>
        arp.isReply && arp.ipv4Dest = address.getLocal && arp.macDest = station.getAddress) = true
    · obtain ⟨address, known, same⟩ := List.any_eq_true.mp accepted
      rw [Bool.and_eq_true, Bool.and_eq_true] at same
      obtain ⟨⟨isReply, here⟩, mine⟩ := same
      have isLocal : station.isLocal arp.ipv4Dest = true :=
        List.any_eq_true.mpr ⟨address, known, here⟩
      cases found : interface.cache.lookup arp.ipv4Source with
      | none =>
          refine ⟨interface, [], ?_, inv, by simp⟩
          rw [Ipv4Interface.receive, if_neg asked, if_pos accepted, found]
      | some entry =>
          cases waits : entry.isWaitReply with
          | true =>
              obtain ⟨next, goes, flushed⟩ := receive_reply inv isReply isLocal
                (of_decide_eq_true mine) found waits
              exact ⟨next, [], goes, inv.flushed found waits (honest isReply) flushed, by simp⟩
          | false =>
              refine ⟨interface, [], ?_, inv, by simp⟩
              rw [Ipv4Interface.receive, if_neg asked, if_pos accepted, found]
              dsimp only
              rw [if_neg (by simp [waits])]
    · refine ⟨interface, [], ?_, inv, by simp⟩
      rw [Ipv4Interface.receive, if_neg asked, if_neg accepted]

end Keeping

end FISim.Arp
