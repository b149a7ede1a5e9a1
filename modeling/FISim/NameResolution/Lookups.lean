import FISim.NameResolution.Outstanding

/-!
Local lookups over whole runs: each of them has been called back, once, or its
node waits for the answer.
-/

namespace FISim.NameResolution

variable {Node : Type} [DecidableEq Node]

-- An entry of a root stays behind when the lookup has failed: it waits for nothing.
def Pending (hierarchy : Hierarchy Node) (net : Network Node) (node : Node) (qId : QueryId)
    (lookup : ℕ) : Prop :=
  hierarchy.superior node ≠ none ∧
    (net.service node).queryCache qId = some (.application lookup)

structure Lookups (hierarchy : Hierarchy Node) (asked : Node → QueryId → Name)
    (net : Network Node) : Prop where
  waiting : ∀ node qId lookup, Pending hierarchy net node qId lookup →
    net.lookups[lookup]? = some (node, asked node qId) ∧
      ∀ call ∈ net.called, call.lookup ≠ lookup
  alone : ∀ node qId other lookup, Pending hierarchy net node qId lookup →
    Pending hierarchy net node other lookup → qId = other
  made : ∀ call ∈ net.called, call.lookup < net.lookups.length
  once : (net.called.map Call.lookup).Nodup
  every : ∀ lookup < net.lookups.length, (∃ call ∈ net.called, call.lookup = lookup) ∨
    ∃ node qId, Pending hierarchy net node qId lookup

variable {hierarchy : Hierarchy Node} {asked : Node → QueryId → Name}
  {before after : Network Node}

omit [DecidableEq Node] in
theorem Lookups.empty : Lookups hierarchy asked {} where
  waiting node qId lookup pending := by cases pending.2
  alone node qId other lookup pending := by cases pending.2
  made call inside := by cases inside
  once := List.nodup_nil
  every lookup bound := by cases bound

omit [DecidableEq Node] in
theorem Pending.inside (lookups : Lookups hierarchy asked before) {node : Node} {qId : QueryId}
    {lookup : ℕ} (pending : Pending hierarchy before node qId lookup) :
    lookup < before.lookups.length := by
  have known := (lookups.waiting node qId lookup pending).1
  exact (List.getElem?_eq_some_iff.mp known).1

omit [DecidableEq Node] in
theorem Lookups.frame (lookups : Lookups hierarchy asked before)
    (same : after.lookups = before.lookups) (called : after.called = before.called)
    (pending : ∀ node qId lookup,
      Pending hierarchy after node qId lookup ↔ Pending hierarchy before node qId lookup) :
    Lookups hierarchy asked after where
  waiting node qId lookup waits := by
    rw [same, called]
    exact lookups.waiting node qId lookup ((pending node qId lookup).mp waits)
  alone node qId other lookup first second :=
    lookups.alone node qId other lookup ((pending node qId lookup).mp first)
      ((pending node other lookup).mp second)
  made := by
    rw [same, called]
    exact lookups.made
  once := by
    rw [called]
    exact lookups.once
  every lookup bound := by
    rw [same] at bound
    rw [called]
    rcases lookups.every lookup bound with known | ⟨node, qId, waits⟩
    · exact Or.inl known
    · exact Or.inr ⟨node, qId, (pending node qId lookup).mpr waits⟩

theorem Lookups.rename (lookups : Lookups hierarchy asked before) {node : Node} {qId : QueryId}
    (idle : awaits (before.service node) qId = false) (name : Name) :
    Lookups hierarchy (renamed asked node qId name) before := by
  refine { lookups with waiting := fun other id lookup waits => ?_ }
  rw [renamed, if_neg]
  · exact lookups.waiting other id lookup waits
  · rintro ⟨rfl, rfl⟩
    simp [awaits, waits.2] at idle

omit [DecidableEq Node] in
theorem Lookups.answered (lookups : Lookups hierarchy asked before) {node : Node} {name : Name}
    {interfaces : CybertwinInterfaceList}
    (grown : after.lookups = before.lookups ++ [(node, name)])
    (called : after.called = before.called ++ [⟨before.lookups.length, name, interfaces⟩])
    (pending : ∀ other qId lookup,
      Pending hierarchy after other qId lookup ↔ Pending hierarchy before other qId lookup) :
    Lookups hierarchy asked after where
  waiting other qId lookup waits := by
    have old := (pending other qId lookup).mp waits
    have bound := old.inside lookups
    obtain ⟨known, uncalled⟩ := lookups.waiting other qId lookup old
    rw [grown, called, List.getElem?_append_left bound]
    refine ⟨known, fun call inside => ?_⟩
    rcases List.mem_append.mp inside with earlier | new
    · exact uncalled call earlier
    · rw [List.mem_singleton.mp new]
      exact Nat.ne_of_gt bound
  alone other qId id lookup first second :=
    lookups.alone other qId id lookup ((pending other qId lookup).mp first)
      ((pending other id lookup).mp second)
  made call inside := by
    rw [called] at inside
    rw [grown, List.length_append, List.length_singleton]
    rcases List.mem_append.mp inside with earlier | new
    · have := lookups.made call earlier
      omega
    · rw [List.mem_singleton.mp new]
      exact Nat.lt_succ_self _
  once := by
    rw [called, List.map_append, List.map_singleton]
    refine lookups.once.append (List.nodup_singleton _) ?_
    rw [List.disjoint_singleton]
    intro inside
    obtain ⟨call, earlier, same⟩ := List.mem_map.mp inside
    exact absurd same (Nat.ne_of_lt (lookups.made call earlier))
  every lookup bound := by
    rw [called]
    rw [grown, List.length_append, List.length_singleton] at bound
    by_cases new : lookup = before.lookups.length
    · exact Or.inl ⟨_, List.mem_append_right _ (List.mem_singleton_self _), new.symm⟩
    · rcases lookups.every lookup (by omega) with ⟨call, earlier, same⟩ | ⟨other, qId, waits⟩
      · exact Or.inl ⟨call, List.mem_append_left _ earlier, same⟩
      · exact Or.inr ⟨other, qId, (pending other qId lookup).mpr waits⟩

omit [DecidableEq Node] in
theorem Lookups.sent (lookups : Lookups hierarchy asked before) {node : Node} {name : Name}
    {qId : QueryId} (grown : after.lookups = before.lookups ++ [(node, name)])
    (called : after.called = before.called) (named : asked node qId = name)
    (pending : ∀ other id lookup, Pending hierarchy after other id lookup ↔
      Pending hierarchy before other id lookup ∨
        other = node ∧ id = qId ∧ lookup = before.lookups.length) :
    Lookups hierarchy asked after where
  waiting other id lookup waits := by
    rw [grown, called]
    rcases (pending other id lookup).mp waits with old | ⟨rfl, rfl, rfl⟩
    · rw [List.getElem?_append_left (old.inside lookups)]
      exact lookups.waiting other id lookup old
    · refine ⟨by simp [named], fun call earlier => ?_⟩
      exact Nat.ne_of_lt (lookups.made call earlier)
  alone other first second lookup waits others := by
    rcases (pending other first lookup).mp waits with old | new
    · have bound := old.inside lookups
      rcases (pending other second lookup).mp others with older | newer
      · exact lookups.alone other first second lookup old older
      · omega
    · rcases (pending other second lookup).mp others with older | newer
      · have bound := older.inside lookups
        omega
      · rw [new.2.1, newer.2.1]
  made call inside := by
    rw [called] at inside
    rw [grown, List.length_append]
    have := lookups.made call inside
    omega
  once := by
    rw [called]
    exact lookups.once
  every lookup bound := by
    rw [called]
    rw [grown, List.length_append, List.length_singleton] at bound
    by_cases new : lookup = before.lookups.length
    · exact Or.inr ⟨node, qId, (pending node qId lookup).mpr (Or.inr ⟨rfl, rfl, new⟩)⟩
    · rcases lookups.every lookup (by omega) with known | ⟨other, id, waits⟩
      · exact Or.inl known
      · exact Or.inr ⟨other, id, (pending other id lookup).mpr (Or.inl waits)⟩

omit [DecidableEq Node] in
theorem Lookups.called (lookups : Lookups hierarchy asked before) {node : Node} {qId : QueryId}
    {lookup : ℕ} {name : Name} {interfaces : CybertwinInterfaceList}
    (waited : Pending hierarchy before node qId lookup) (same : after.lookups = before.lookups)
    (called : after.called = before.called ++ [⟨lookup, name, interfaces⟩])
    (pending : ∀ other id number, Pending hierarchy after other id number ↔
      Pending hierarchy before other id number ∧ ¬ (other = node ∧ id = qId)) :
    Lookups hierarchy asked after where
  waiting other id number waits := by
    obtain ⟨old, elsewhere⟩ := (pending other id number).mp waits
    obtain ⟨known, uncalled⟩ := lookups.waiting other id number old
    rw [same, called]
    refine ⟨known, fun call inside => ?_⟩
    rcases List.mem_append.mp inside with earlier | new
    · exact uncalled call earlier
    · rw [List.mem_singleton.mp new]
      rintro rfl
      rw [(lookups.waiting node qId _ waited).1, Option.some.injEq, Prod.mk.injEq] at known
      obtain ⟨rfl, _⟩ := known
      exact elsewhere ⟨rfl, lookups.alone _ _ _ _ old waited⟩
  alone other first second number waits others :=
    lookups.alone other first second number ((pending other first number).mp waits).1
      ((pending other second number).mp others).1
  made call inside := by
    rw [called] at inside
    rw [same]
    rcases List.mem_append.mp inside with earlier | new
    · exact lookups.made call earlier
    · rw [List.mem_singleton.mp new]
      exact waited.inside lookups
  once := by
    rw [called, List.map_append, List.map_singleton]
    refine lookups.once.append (List.nodup_singleton _) ?_
    rw [List.disjoint_singleton]
    intro inside
    obtain ⟨call, earlier, again⟩ := List.mem_map.mp inside
    exact (lookups.waiting node qId lookup waited).2 call earlier again
  every number bound := by
    rw [same] at bound
    rw [called]
    rcases lookups.every number bound with ⟨call, earlier, again⟩ | ⟨other, id, waits⟩
    · exact Or.inl ⟨call, List.mem_append_left _ earlier, again⟩
    · by_cases here : other = node ∧ id = qId
      · obtain ⟨rfl, rfl⟩ := here
        have equal : lookup = number := by
          have twice := waited.2.symm.trans waits.2
          simpa using twice
        exact Or.inl ⟨_, List.mem_append_right _ (List.mem_singleton_self _), equal⟩
      · exact Or.inr ⟨other, id, (pending other id number).mpr ⟨waits, here⟩⟩

end FISim.NameResolution
