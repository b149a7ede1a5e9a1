import FISim.AddressResolution.Resolving

/-!
What the timer and the changes of the cache from outside keep of an interface.
-/

namespace FISim.Arp

open Ipv4Interface

variable {Pair : Type} {station : Station} {owns : Ipv4Address → Address → Prop}
  {requested : Ipv4Address → Prop} {interface : Ipv4Interface Pair} {now : ℕ}

theorem Inv.later (inv : Inv station owns requested now interface) {more : Ipv4Address → Prop}
    {moment : ℕ} (grows : ∀ dest, requested dest → more dest) (passes : now ≤ moment)
    (timely : ∀ due ∈ interface.cache.waitReplyTimer, moment ≤ due) :
    Inv station owns more moment interface := by
  refine ⟨fun dest entry found => ?_, timely, fun due running => ?_, inv.resolved, inv.custody⟩
  · exact (inv.entries dest entry found).mono (fun _ running => running)
      (Or.imp_right (grows dest))
  · have soon := inv.soon due running
    omega

theorem Inv.requests (inv : Inv station owns requested now interface) {index : ℕ}
    {destination : Ipv4Address} (isNext : interface.scheduled[index]? = some destination)
    {more : Ipv4Address → Prop} (grows : ∀ dest, requested dest → more dest)
    (sent : more destination) :
    Inv station owns more now { interface with scheduled := interface.scheduled.eraseIdx index } := by
  refine ⟨fun dest entry found => ?_, inv.timely, inv.soon, inv.resolved, inv.custody⟩
  refine (inv.entries dest entry found).mono (fun _ running => running) ?_
  rintro (waits | before)
  · by_cases same : dest = destination
    · exact Or.inr (same ▸ sent)
    · refine Or.inl ?_
      obtain ⟨place, isThere⟩ := List.mem_iff_getElem?.mp waits
      rw [List.mem_eraseIdx_iff_getElem?]
      refine ⟨place, ?_, isThere⟩
      rintro rfl
      exact same (Option.some.inj (isThere.symm.trans isNext))
  · exact Or.inr (grows dest before)

theorem Inv.edited (inv : Inv station owns requested now interface) {cache : ArpCache Pair}
    (timer : cache.waitReplyTimer = interface.cache.waitReplyTimer)
    (edited : ∀ dest, cache.lookup dest = interface.cache.lookup dest ∨
      interface.waitingFor dest = [] ∧ ∀ entry ∈ cache.lookup dest,
        entry.isWaitReply = false ∧ Idle owns dest entry) :
    Inv station owns requested now { interface with cache } := by
  refine ⟨fun dest entry found => ?_, ?_, ?_, inv.resolved, fun dest => ?_⟩
  · dsimp only
    rw [timer]
    rcases edited dest with same | ⟨-, idle⟩
    · exact inv.entries dest entry (same ▸ found)
    · exact .of_idle (idle entry found).1 (idle entry found).2
  · dsimp only
    rw [timer]
    exact inv.timely
  · dsimp only
    rw [timer]
    exact inv.soon
  · have custody := inv.custody dest
    have same : waitingFor { interface with cache } dest = interface.waitingFor dest := by
      rcases edited dest with same | ⟨empty, idle⟩
      · rw [waitingFor, same]
        rfl
      · rw [empty, waitingFor]
        cases found : cache.lookup dest with
        | none => rfl
        | some entry => exact (idle entry found).2.empty
    rw [same]
    exact custody

theorem Inv.waitingFor_idle (inv : Inv station owns requested now interface) {dest : Ipv4Address}
    {entry : Entry Pair} (found : interface.cache.lookup dest = some entry)
    (rests : entry.isWaitReply = false) : interface.waitingFor dest = [] := by
  rw [waitingFor, found]
  exact ((inv.entries dest entry found).idle rests).empty

theorem isWaitReply_of_isAlive {entry : Entry Pair} (alive : entry.isAlive = true) :
    entry.isWaitReply = false := by
  rw [Entry.isAlive, decide_eq_true_eq] at alive
  simp [Entry.isWaitReply, alive]

theorem Inv.packetReceived (inv : Inv station owns requested now interface) (source : Ipv4Address)
    (sender : Address) : Inv station owns requested now (interface.packetReceived now source sender) := by
  rw [Ipv4Interface.packetReceived]
  split
  · rename_i entry found
    split
    · rename_i alive
      have rests := isWaitReply_of_isAlive alive
      refine inv.edited rfl fun dest => ?_
      rw [ArpCache.lookup_put]
      by_cases same : dest = source
      · subst same
        rw [if_pos rfl]
        refine Or.inr ⟨inv.waitingFor_idle found rests, fun changed isChanged => ?_⟩
        obtain rfl := Option.some.inj isChanged
        have idle := (inv.entries dest entry found).idle rests
        exact ⟨rests, idle.empty, idle.retries, idle.known⟩
      · exact Or.inl (if_neg same)
    · exact inv
  · refine inv.edited rfl fun dest => ?_
    have mapped : ArpCache.lookup { interface.cache with
        arpCache := interface.cache.arpCache.map fun _ entry =>
          if entry.macAddress = sender && entry.isAlive then entry.updateSeen now else entry } dest =
        (interface.cache.lookup dest).map fun entry =>
          if entry.macAddress = sender && entry.isAlive then entry.updateSeen now else entry :=
      OrderedMap.find?_map _ (fun _ _ _ _ => rfl) dest
    rw [mapped]
    cases found : interface.cache.lookup dest with
    | none => exact Or.inl rfl
    | some entry =>
        rw [Option.map_some]
        split
        · rename_i known
          have rests := isWaitReply_of_isAlive (Bool.and_eq_true_iff.mp known).2
          have idle := (inv.entries dest entry found).idle rests
          refine Or.inr ⟨inv.waitingFor_idle found rests, fun changed isChanged => ?_⟩
          obtain rfl := Option.some.inj isChanged
          exact ⟨rests, idle.empty, idle.retries, idle.known⟩
        · exact Or.inl rfl

theorem Inv.addEntry (inv : Inv station owns requested now interface) {address : Ipv4Address}
    {macAddress : Address} (valid : macAddress ≠ []) (right : owns address macAddress)
    (rests : ∀ entry ∈ interface.cache.lookup address, entry.isWaitReply = false) :
    ∃ next, interface.addEntry now address macAddress = some next ∧
      Inv station owns requested now next := by
  have empty : interface.waitingFor address = [] := by
    cases found : interface.cache.lookup address with
    | none => rw [waitingFor, found]; rfl
    | some entry => exact inv.waitingFor_idle found (rests entry found)
  have pending : ((interface.cache.lookup address).getD {}).pending = [] := by
    cases found : interface.cache.lookup address with
    | none => rfl
    | some entry =>
        rw [waitingFor, found] at empty
        exact empty
  let cache := interface.cache.put address { (interface.cache.lookup address).getD {} with
    macAddress, state := .staticAutogenerated, retries := 0, lastSeen := now }
  have timer : cache.waitReplyTimer = interface.cache.waitReplyTimer := rfl
  refine ⟨_, ?_, inv.edited timer fun dest => ?_⟩
  · rw [Ipv4Interface.addEntry, Entry.markAutoGenerated, if_neg (by simpa [Entry.setMacAddress])]
    rfl
  · rw [ArpCache.lookup_put]
    by_cases same : dest = address
    · subst same
      rw [if_pos rfl]
      refine Or.inr ⟨empty, fun entry isEntry => ?_⟩
      obtain rfl := Option.some.inj isEntry
      exact ⟨rfl, pending, rfl, fun _ => right⟩
    · exact Or.inl (if_neg same)

theorem Inv.removeAutoGeneratedEntries (inv : Inv station owns requested now interface) :
    Inv station owns requested now interface.removeAutoGeneratedEntries := by
  refine inv.edited rfl fun dest => ?_
  have filtered : interface.cache.removeAutoGeneratedEntries.lookup dest =
      (interface.cache.lookup dest).filter fun entry => !entry.isAutoGenerated :=
    OrderedMap.find?_filter _ (fun _ _ _ _ => rfl) dest
  rw [filtered]
  cases found : interface.cache.lookup dest with
  | none => exact Or.inl rfl
  | some entry =>
      cases generated : entry.isAutoGenerated with
      | true =>
          rw [Entry.isAutoGenerated, decide_eq_true_eq] at generated
          have rests : entry.isWaitReply = false := by simp [Entry.isWaitReply, generated]
          refine Or.inr ⟨inv.waitingFor_idle found rests, fun kept isKept => ?_⟩
          simp [Option.filter, Entry.isAutoGenerated, generated] at isKept
      | false => exact Or.inl (by simp [Option.filter, generated])

theorem Inv.custody_gone (inv : Inv station owns requested now interface)
    {next : Ipv4Interface Pair} (pairs : List (Ipv4Address × Pair))
    (handed : next.handed = interface.handed) (sent : next.sent = interface.sent)
    (gone : (next.received ++ next.dropped ++ next.lost).Perm
      (interface.received ++ interface.dropped ++ interface.lost ++ pairs))
    (each : ∀ dest, next.waitingFor dest = interface.waitingFor dest ∧ pairsFor dest pairs = [] ∨
      next.waitingFor dest = [] ∧ pairsFor dest pairs = interface.waitingFor dest) (dest : Ipv4Address) :
    Custody (next.handedFor dest) (next.sentTo dest) (next.waitingFor dest) (next.goneFor dest) := by
  have perm := (gone.filter fun pair => pair.1 = dest).map Prod.snd
  change (next.goneFor dest).Perm (pairsFor dest _) at perm
  rw [pairsFor_append dest _ pairs] at perm
  rw [handedFor, handed, sentTo, sent]
  refine Custody.gone_perm ?_ perm.symm
  rcases each dest with ⟨same, nothing⟩ | ⟨empty, all⟩
  · rw [same, nothing, List.append_nil]
    exact inv.custody dest
  · rw [empty, all]
    exact (inv.custody dest).loseAll

theorem Inv.remove (inv : Inv station owns requested now interface) (address : Ipv4Address) :
    Inv station owns requested now (interface.remove address) := by
  refine ⟨fun dest entry found => ?_, inv.timely, inv.soon, inv.resolved,
    inv.custody_gone (((interface.cache.lookup address).elim [] Entry.pending).map
      (Prod.mk address)) rfl rfl ?_ fun dest => ?_⟩
  · rw [Ipv4Interface.remove, ArpCache.lookup_remove] at found
    split at found
    · cases found
    · exact inv.entries dest entry found
  · rw [List.append_assoc (interface.received ++ interface.dropped)]
    exact List.Perm.refl _
  · rw [pairsFor_map, waitingFor, Ipv4Interface.remove, ArpCache.lookup_remove]
    by_cases same : address = dest
    · subst same
      rw [if_pos rfl]
      exact Or.inr ⟨rfl, if_pos rfl⟩
    · rw [if_neg (Ne.symm same)]
      exact Or.inl ⟨rfl, if_neg same⟩

theorem Inv.flush (inv : Inv station owns requested now interface) :
    Inv station owns requested now interface.flush := by
  refine ⟨fun dest entry found => ?_, fun due running => ?_, fun due running => ?_, inv.resolved,
    inv.custody_gone interface.cache.pairs rfl rfl ?_ fun dest => Or.inr ⟨rfl, ?_⟩⟩
  · cases found
  · cases running
  · cases running
  · rw [List.append_assoc (interface.received ++ interface.dropped)]
    exact List.Perm.refl _
  · exact pairsFor_gathered interface.cache Entry.pending dest

theorem lookup_timeout (cache : ArpCache Pair) (attributes : Attributes) (dest : Ipv4Address) :
    (cache.handleWaitReplyTimeout attributes now).1.lookup dest =
      (cache.lookup dest).map fun entry => entry.afterTimeout attributes now :=
  OrderedMap.find?_map cache.arpCache (fun _ _ _ _ => rfl) dest

theorem timer_timeout {cache : ArpCache Pair} {attributes : Attributes} {dest : Ipv4Address}
    {entry : Entry Pair} (found : cache.lookup dest = some entry)
    (retried : entry.isRetried attributes = true) :
    (cache.handleWaitReplyTimeout attributes now).1.waitReplyTimer =
      some (now + attributes.waitReplyTimeout) := by
  obtain ⟨other, -, member⟩ := cache.arpCache.find?_eq_some_iff.mp found
  refine if_neg fun none => ?_
  have kept : other ∈ ([] : List Ipv4Address) := by
    rw [← none]
    exact List.mem_map.mpr ⟨(other, entry), List.mem_filter.mpr ⟨member, retried⟩, rfl⟩
  cases kept

theorem Entry.afterTimeout_pending (entry : Entry Pair) (attributes : Attributes) :
    (entry.afterTimeout attributes now).pending =
      if entry.isGivenUp attributes then [] else entry.pending := by
  rw [Entry.afterTimeout]
  by_cases retried : entry.isRetried attributes = true
  · have kept : ¬ entry.isGivenUp attributes = true := by
      simp only [Entry.isRetried, Entry.isGivenUp] at retried ⊢
      simp_all
    rw [if_pos retried, if_neg kept]
    rfl
  · rw [if_neg retried]
    split <;> rfl

theorem pairsFor_timeout (cache : ArpCache Pair) (attributes : Attributes) (dest : Ipv4Address) :
    pairsFor dest (cache.handleWaitReplyTimeout attributes now).2.2 =
      (cache.lookup dest).elim [] fun entry =>
        if entry.isGivenUp attributes then entry.pending else [] :=
  pairsFor_gathered cache (fun entry => if entry.isGivenUp attributes then entry.pending else []) dest

theorem EntrySound.timeout {timer : Option ℕ} {asked : Ipv4Address → Prop} {dest : Ipv4Address}
    {entry : Entry Pair} (sound : EntrySound station owns timer asked dest entry)
    (due : timer = some now) {later : Option ℕ}
    (runs : entry.isRetried station.attributes = true →
      later = some (now + station.attributes.waitReplyTimeout)) :
    EntrySound station owns later asked dest (entry.afterTimeout station.attributes now) := by
  rw [Entry.afterTimeout]
  split
  · rename_i retried
    obtain ⟨waits, few⟩ := Bool.and_eq_true_iff.mp retried
    have waiting := sound.waiting waits
    obtain ⟨moment, isDue, before⟩ := waiting.due
    obtain rfl := Option.some.inj (due.symm.trans isDue)
    refine .of_waiting waits ⟨waiting.holds, waiting.few, of_decide_eq_true few,
      ⟨_, runs retried, Nat.le_refl _⟩, ?_, waiting.remote, waiting.asked⟩
    have seen := waiting.seen
    change now ≤ entry.asked + (entry.retries + 1) * station.attributes.waitReplyTimeout
    rw [Nat.add_mul]
    omega
  · rename_i notRetried
    split
    · exact .of_idle rfl ⟨rfl, rfl, fun live => by cases live⟩
    · rename_i kept
      cases waits : entry.isWaitReply with
      | true =>
          simp only [Entry.isRetried, Entry.isGivenUp, waits] at notRetried kept
          simp_all
      | false => exact .of_idle waits (sound.idle waits)

theorem Inv.timeout (inv : Inv station owns requested now interface)
    (due : interface.cache.waitReplyTimer = some now) :
    Inv station owns requested now (interface.handleWaitReplyTimeout station now).1 := by
  have timers : ∀ moment ∈
      (interface.cache.handleWaitReplyTimeout station.attributes now).1.waitReplyTimer,
      moment = now + station.attributes.waitReplyTimeout := by
    intro moment running
    dsimp only [ArpCache.handleWaitReplyTimeout] at running
    split at running
    · cases running
    · exact (Option.some.inj running).symm
  refine ⟨fun dest changed isChanged => ?_, fun moment running => ?_, fun moment running => ?_,
    inv.resolved, inv.custody_gone
      (interface.cache.handleWaitReplyTimeout station.attributes now).2.2 rfl rfl ?_ fun dest => ?_⟩
  · obtain ⟨entry, found, rfl⟩ := Option.map_eq_some_iff.mp
      ((lookup_timeout interface.cache station.attributes dest).symm.trans isChanged)
    exact (inv.entries dest entry found).timeout due (timer_timeout found)
  · rw [timers moment running]
    exact Nat.le_add_right _ _
  · rw [timers moment running]
  · change (interface.received ++ (interface.dropped ++ _) ++ interface.lost).Perm _
    rw [← List.append_assoc interface.received]
    exact perm_behind _ _ interface.lost
  · have after : (interface.handleWaitReplyTimeout station now).1.cache.lookup dest = _ :=
      lookup_timeout interface.cache station.attributes dest
    rw [pairsFor_timeout, waitingFor, waitingFor, after]
    cases found : interface.cache.lookup dest with
    | none => exact Or.inl ⟨rfl, rfl⟩
    | some entry =>
        rw [Option.map_some, Option.elim_some, Option.elim_some, Option.elim_some,
          Entry.afterTimeout_pending]
        split
        · exact Or.inr ⟨rfl, rfl⟩
        · exact Or.inl ⟨rfl, rfl⟩

end FISim.Arp
