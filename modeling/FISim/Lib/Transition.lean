import Mathlib.Algebra.BigOperators.Group.Finset.Basic
import Mathlib.Algebra.Order.BigOperators.Group.Finset
import Mathlib.Data.Set.Finite.Lattice

/-!
Partial step systems.  A step takes a state and an action and either happens or
is refused.  A run is a list of actions, a guarded run takes every action in a
state that meets a guard, and an unbounded run is a sequence of states.
-/

namespace Transition

universe u v

variable {State : Type u} {Action : Type v}
variable {step : State → Action → Option State} {guard : State → Action → Prop}

def run (step : State → Action → Option State) (start : State) (actions : List Action) :
    Option State :=
  actions.foldlM step start

@[simp] theorem run_nil (start : State) : run step start [] = some start := rfl

@[simp] theorem run_cons (start : State) (action : Action) (rest : List Action) :
    run step start (action :: rest) = (step start action).bind fun next => run step next rest :=
  List.foldlM_cons

theorem run_append (start : State) (first second : List Action) :
    run step start (first ++ second) =
      (run step start first).bind fun middle => run step middle second :=
  List.foldlM_append

theorem run_append_some {start middle last : State} {first second : List Action}
    (before : run step start first = some middle) (after : run step middle second = some last) :
    run step start (first ++ second) = some last := by
  rw [run_append, before]
  exact after

theorem run_prefix {start last : State} {first second : List Action}
    (ran : run step start (first ++ second) = some last) :
    ∃ middle, run step start first = some middle ∧ run step middle second = some last := by
  rw [run_append] at ran
  exact Option.bind_eq_some_iff.mp ran

theorem run_concat {start last : State} {actions : List Action} {action : Action}
    (ran : run step start (actions ++ [action]) = some last) :
    ∃ middle, run step start actions = some middle ∧ step middle action = some last := by
  obtain ⟨middle, before, after⟩ := run_prefix ran
  refine ⟨middle, before, ?_⟩
  simpa using after

/-- Every action of the list is taken in a state that meets the guard. -/
def Guarded (step : State → Action → Option State) (guard : State → Action → Prop) :
    State → List Action → Prop
  | _, [] => True
  | start, action :: rest =>
      guard start action ∧ ∀ next, step start action = some next → Guarded step guard next rest

instance [decidable : ∀ state action, Decidable (guard state action)] :
    ∀ start actions, Decidable (Guarded step guard start actions)
  | _, [] => isTrue trivial
  | start, action :: rest =>
      match stepped : step start action with
      | none => decidable_of_iff (guard start action) (by simp [Guarded, stepped])
      | some next =>
          have := instDecidableGuarded next rest
          decidable_of_iff (guard start action ∧ Guarded step guard next rest)
            (by simp [Guarded, stepped])

theorem Guarded.append_left {start : State} {first second : List Action}
    (guarded : Guarded step guard start (first ++ second)) : Guarded step guard start first := by
  induction first generalizing start with
  | nil => trivial
  | cons action rest ih =>
      exact ⟨guarded.1, fun next stepped => ih (guarded.2 next stepped)⟩

theorem Guarded.append_right {start middle : State} {first second : List Action}
    (guarded : Guarded step guard start (first ++ second))
    (ran : run step start first = some middle) : Guarded step guard middle second := by
  induction first generalizing start with
  | nil =>
      simp only [run_nil, Option.some.injEq] at ran
      subst ran
      exact guarded
  | cons action rest ih =>
      rw [run_cons] at ran
      obtain ⟨next, stepped, later⟩ := Option.bind_eq_some_iff.mp ran
      exact ih (guarded.2 next stepped) later

theorem guarded_of_forall {start : State} {actions : List Action}
    (holds : ∀ state, ∀ action ∈ actions, guard state action) :
    Guarded step guard start actions := by
  induction actions generalizing start with
  | nil => trivial
  | cons action rest ih =>
      exact ⟨holds start action (by simp),
        fun next _ => ih fun state other member => holds state other (by simp [member])⟩

theorem guarded_of_reached {start : State} {actions : List Action}
    (reached : ∀ first action second middle, actions = first ++ action :: second →
      run step start first = some middle → guard middle action) :
    Guarded step guard start actions := by
  induction actions generalizing start with
  | nil => trivial
  | cons action rest ih =>
      refine ⟨reached [] action rest start rfl rfl, fun next stepped => ih ?_⟩
      intro first other second middle split ran
      refine reached (action :: first) other second middle (by rw [split]; rfl) ?_
      rw [run_cons, stepped]
      exact ran

theorem guarded_of_invariant {inv : State → Prop} {other : State → Action → Prop}
    (keeps : ∀ state action next, inv state → guard state action →
      step state action = some next → inv next)
    (gives : ∀ state action, inv state → guard state action → other state action)
    {start : State} {actions : List Action} (initial : inv start)
    (guarded : Guarded step guard start actions) : Guarded step other start actions := by
  induction actions generalizing start with
  | nil => trivial
  | cons action rest ih =>
      refine ⟨gives start action initial guarded.1, fun next stepped => ?_⟩
      exact ih (keeps start action next initial guarded.1 stepped) (guarded.2 next stepped)

/-- Two guards that agree where an invariant holds are met by the same runs, when one of them keeps
the invariant. -/
theorem guarded_iff_guarded {inv : State → Prop} {other : State → Action → Prop}
    (same : ∀ state action, inv state → (guard state action ↔ other state action))
    (keeps : ∀ state action next, inv state → other state action →
      step state action = some next → inv next)
    {start : State} {actions : List Action} (initial : inv start) :
    Guarded step guard start actions ↔ Guarded step other start actions := by
  constructor
  · refine guarded_of_invariant ?_ (fun state action holds => (same state action holds).mp) initial
    intro state action next holds met stepped
    exact keeps state action next holds ((same state action holds).mp met) stepped
  · exact guarded_of_invariant keeps (fun state action holds => (same state action holds).mpr)
      initial

theorem guarded_of_isSome
    (shows : ∀ state action next, step state action = some next → guard state action)
    {start : State} {actions : List Action} (ran : (run step start actions).isSome) :
    Guarded step guard start actions := by
  induction actions generalizing start with
  | nil => trivial
  | cons action rest ih =>
      rw [run_cons] at ran
      cases stepped : step start action with
      | none => simp [stepped] at ran
      | some next =>
          rw [stepped, Option.bind_some] at ran
          refine ⟨shows start action next stepped, ?_⟩
          intro other again
          obtain rfl := Option.some.inj (stepped.symm.trans again)
          exact ih ran

theorem run_invariant {inv : State → Prop}
    (keeps : ∀ state action next, inv state → guard state action →
      step state action = some next → inv next)
    {start last : State} {actions : List Action} (initial : inv start)
    (guarded : Guarded step guard start actions)
    (ran : run step start actions = some last) : inv last := by
  induction actions generalizing start with
  | nil =>
      simp only [run_nil, Option.some.injEq] at ran
      exact ran ▸ initial
  | cons action rest ih =>
      rw [run_cons] at ran
      obtain ⟨next, stepped, later⟩ := Option.bind_eq_some_iff.mp ran
      exact ih (keeps start action next initial guarded.1 stepped) (guarded.2 next stepped) later

/-- What lets the next action happen, and is kept for those that are left, lets all of them
happen. -/
theorem exists_run (kept : State → List Action → Prop)
    (progress : ∀ state action rest, kept state (action :: rest) →
      ∃ next, step state action = some next ∧ kept next rest)
    {start : State} {actions : List Action} (initial : kept start actions) :
    ∃ last, run step start actions = some last ∧ kept last [] := by
  induction actions generalizing start with
  | nil => exact ⟨start, rfl, initial⟩
  | cons action rest ih =>
      obtain ⟨next, stepped, later⟩ := progress start action rest initial
      obtain ⟨last, ran, final⟩ := ih later
      exact ⟨last, by rw [run_cons, stepped]; exact ran, final⟩

/-- The refinement rule: where every step of a second system is followed under a guard, every run
of it is. -/
theorem run_refines {Abstract : Type*} {abstractStep : Abstract → Action → Option Abstract}
    {rel : State → Abstract → Prop}
    (follows : ∀ state action abstract reached, rel state abstract → guard state action →
      abstractStep abstract action = some reached →
        ∃ next, step state action = some next ∧ rel next reached)
    {start : State} {abstract last : Abstract} {actions : List Action}
    (related : rel start abstract) (guarded : Guarded step guard start actions)
    (ran : run abstractStep abstract actions = some last) :
    ∃ final, run step start actions = some final ∧ rel final last := by
  induction actions generalizing start abstract with
  | nil =>
      simp only [run_nil, Option.some.injEq] at ran
      exact ⟨start, rfl, ran ▸ related⟩
  | cons action rest ih =>
      rw [run_cons] at ran
      obtain ⟨reached, stepped, later⟩ := Option.bind_eq_some_iff.mp ran
      obtain ⟨next, followed, kept⟩ := follows start action abstract reached related guarded.1 stepped
      obtain ⟨final, rested, shown⟩ := ih kept (guarded.2 next followed) later
      refine ⟨final, ?_, shown⟩
      rw [run_cons, followed, Option.bind_some, rested]

theorem run_refines_guarded {Abstract : Type*} {abstractStep : Abstract → Action → Option Abstract}
    {abstractGuard : Abstract → Action → Prop} {rel : State → Abstract → Prop}
    (follows : ∀ state action abstract reached, rel state abstract → abstractGuard abstract action →
      abstractStep abstract action = some reached →
        ∃ next, step state action = some next ∧ rel next reached)
    {start : State} {abstract last : Abstract} {actions : List Action}
    (related : rel start abstract) (guarded : Guarded abstractStep abstractGuard abstract actions)
    (ran : run abstractStep abstract actions = some last) :
    ∃ final, run step start actions = some final ∧ rel final last := by
  induction actions generalizing start abstract with
  | nil =>
      simp only [run_nil, Option.some.injEq] at ran
      exact ⟨start, rfl, ran ▸ related⟩
  | cons action rest ih =>
      rw [run_cons] at ran
      obtain ⟨reached, stepped, later⟩ := Option.bind_eq_some_iff.mp ran
      obtain ⟨next, followed, kept⟩ := follows start action abstract reached related guarded.1 stepped
      obtain ⟨final, rested, shown⟩ := ih kept (guarded.2 reached stepped) later
      refine ⟨final, ?_, shown⟩
      rw [run_cons, followed, Option.bind_some, rested]

theorem run_history (inv : List Action → State → Prop)
    (keeps : ∀ past state action next, inv past state → guard state action →
      step state action = some next → inv (past ++ [action]) next)
    {start last : State} {actions : List Action} (initial : inv [] start)
    (guarded : Guarded step guard start actions)
    (ran : run step start actions = some last) : inv actions last := by
  induction actions using List.reverseRecOn generalizing last with
  | nil =>
      simp only [run_nil, Option.some.injEq] at ran
      exact ran ▸ initial
  | append_singleton past action ih =>
      obtain ⟨middle, before, stepped⟩ := run_concat ran
      have reached := ih guarded.append_left before
      exact keeps past middle action last reached (guarded.append_right before).1 stepped

def Throughout (step : State → Action → Option State) (inv : State → Prop) (start : State)
    (actions : List Action) : Prop :=
  ∀ first second middle, actions = first ++ second → run step start first = some middle → inv middle

theorem Throughout.tail {inv : State → Prop} {start next : State} {action : Action}
    {rest : List Action} (holds : Throughout step inv start (action :: rest))
    (stepped : step start action = some next) : Throughout step inv next rest := by
  rintro first second middle rfl ran
  refine holds (action :: first) second middle rfl ?_
  rw [run_cons, stepped]
  exact ran

theorem throughout_of_guarded {inv : State → Prop}
    (keeps : ∀ state action next, inv state → guard state action →
      step state action = some next → inv next)
    {start : State} {actions : List Action} (initial : inv start)
    (guarded : Guarded step guard start actions) : Throughout step inv start actions := by
  rintro first second middle rfl ran
  exact run_invariant keeps initial guarded.append_left ran

/-- The progress rule: where every guarded step happens and keeps an invariant, a guarded run comes
to its end and keeps it throughout. -/
theorem run_progress {inv : State → Prop}
    (goes : ∀ state action, inv state → guard state action →
      ∃ next, step state action = some next ∧ inv next)
    {start : State} {actions : List Action} (initial : inv start)
    (guarded : Guarded step guard start actions) :
    (run step start actions).isSome ∧ Throughout step inv start actions := by
  constructor
  · induction actions generalizing start with
    | nil => rfl
    | cons action rest ih =>
        obtain ⟨next, stepped, kept⟩ := goes start action initial guarded.1
        rw [run_cons, stepped, Option.bind_some]
        exact ih kept (guarded.2 next stepped)
  · refine throughout_of_guarded ?_ initial guarded
    intro state action next holds met stepped
    obtain ⟨other, happens, kept⟩ := goes state action holds met
    obtain rfl := Option.some.inj (stepped.symm.trans happens)
    exact kept

/-- The exactness rule: when a guarded step keeps an invariant that gives the goal, and the goal
after a step shows that the step met the guard, the goal holds throughout a run exactly if the
run is guarded. -/
theorem throughout_iff_guarded_of {inv goal : State → Prop}
    (gives : ∀ state, inv state → goal state)
    (keeps : ∀ state action next, inv state → guard state action →
      step state action = some next → inv next)
    (shows : ∀ state action next, inv state → step state action = some next → goal next →
      guard state action)
    {start : State} {actions : List Action} (initial : inv start)
    (ran : (run step start actions).isSome) :
    Throughout step goal start actions ↔ Guarded step guard start actions := by
  constructor
  · induction actions generalizing start with
    | nil => exact fun _ => trivial
    | cons action rest ih =>
        intro holds
        rw [run_cons] at ran
        cases stepped : step start action with
        | none => simp [stepped] at ran
        | some next =>
            rw [stepped, Option.bind_some] at ran
            have reached : goal next := holds [action] rest next rfl (by simp [stepped])
            have met := shows start action next initial stepped reached
            refine ⟨met, ?_⟩
            intro other happened
            rw [Option.some.inj (happened.symm.trans stepped)]
            exact ih (keeps start action next initial met stepped) ran (holds.tail stepped)
  · intro guarded first second middle split ran
    exact gives middle (throughout_of_guarded keeps initial guarded first second middle split ran)

/-- The exactness rule for runs that may be refused: a refused step need not meet the guard. -/
theorem throughout_iff_guarded_some {inv goal : State → Prop}
    (gives : ∀ state, inv state → goal state)
    (keeps : ∀ state action next, inv state → guard state action →
      step state action = some next → inv next)
    (shows : ∀ state action next, inv state → step state action = some next → goal next →
      guard state action)
    {start : State} {actions : List Action} (initial : inv start) :
    Throughout step goal start actions ↔
      Guarded step (fun state action => (step state action).isSome → guard state action)
        start actions := by
  constructor
  · induction actions generalizing start with
    | nil => exact fun _ => trivial
    | cons action rest ih =>
        intro holds
        refine ⟨fun happens => ?_, fun next stepped => ?_⟩
        · obtain ⟨next, stepped⟩ := Option.isSome_iff_exists.mp happens
          exact shows start action next initial stepped
            (holds [action] rest next rfl (by simp [stepped]))
        · have met := shows start action next initial stepped
            (holds [action] rest next rfl (by simp [stepped]))
          exact ih (keeps start action next initial met stepped) (holds.tail stepped)
  · rintro guarded first second middle rfl ran
    refine gives middle (run_invariant ?_ initial guarded.append_left ran)
    intro state action next holds met stepped
    exact keeps state action next holds (met (by simp [stepped])) stepped

theorem throughout_iff_guarded {inv : State → Prop}
    (keeps_iff : ∀ state action next, inv state → step state action = some next →
      (inv next ↔ guard state action))
    {start : State} {actions : List Action} (initial : inv start)
    (ran : (run step start actions).isSome) :
    Throughout step inv start actions ↔ Guarded step guard start actions := by
  refine throughout_iff_guarded_of (fun _ holds => holds) ?_ ?_ initial ran
  · exact fun state action next holds met stepped =>
      (keeps_iff state action next holds stepped).mpr met
  · exact fun state action next holds stepped reached =>
      (keeps_iff state action next holds stepped).mp reached

/-- Along a guarded run, an invariant that speaks of the actions so far and of a ghost gives a
ghost for every moment, each one later than the one before. -/
theorem exists_ghosts {Ghost : Type*} (inv : List Action → State → Ghost → Prop)
    (later : Ghost → Ghost → Prop) (same : ∀ ghost, later ghost ghost)
    (keeps : ∀ past state action next ghost, inv past state ghost → guard state action →
      step state action = some next →
        ∃ after, inv (past ++ [action]) next after ∧ later ghost after)
    {start : State} {past actions : List Action} {ghost : Ghost} (initial : inv past start ghost)
    (guarded : Guarded step guard start actions) :
    ∃ ghosts : ℕ → Ghost, ghosts 0 = ghost ∧ (∀ time, later (ghosts time) (ghosts (time + 1))) ∧
      ∀ time state, run step start (actions.take time) = some state →
        inv (past ++ actions.take time) state (ghosts time) := by
  induction actions generalizing start past ghost with
  | nil =>
      refine ⟨fun _ => ghost, rfl, fun _ => same ghost, fun time state ran => ?_⟩
      simp only [List.take_nil, run_nil, Option.some.injEq] at ran
      simpa [← ran] using initial
  | cons action rest ih =>
      cases stepped : step start action with
      | none =>
          refine ⟨fun _ => ghost, rfl, fun _ => same ghost, fun time state ran => ?_⟩
          cases time with
          | zero =>
              simp only [List.take_zero, run_nil, Option.some.injEq] at ran
              simpa [← ran] using initial
          | succ time => simp [stepped] at ran
      | some next =>
          obtain ⟨after, kept, grown⟩ := keeps past start action next ghost initial guarded.1 stepped
          obtain ⟨ghosts, first, growing, holds⟩ := ih kept (guarded.2 next stepped)
          refine ⟨fun time => time.casesOn ghost ghosts, rfl, fun time => ?_, fun time state ran => ?_⟩
          · cases time with
            | zero =>
                change later ghost (ghosts 0)
                rw [first]
                exact grown
            | succ time => exact growing time
          · cases time with
            | zero =>
                simp only [List.take_zero, run_nil, Option.some.injEq] at ran
                simpa [← ran] using initial
            | succ time =>
                rw [List.take_succ_cons, run_cons, stepped, Option.bind_some] at ran
                simpa using holds time state ran

def Reachable (step : State → Action → Option State) (start last : State) : Prop :=
  ∃ actions, run step start actions = some last

theorem Reachable.invariant {inv : State → Prop}
    (keeps : ∀ state action next, inv state → step state action = some next → inv next)
    {start last : State} (initial : inv start) (reachable : Reachable step start last) :
    inv last := by
  obtain ⟨actions, ran⟩ := reachable
  have free : Guarded step (fun _ _ => True) start actions :=
    guarded_of_forall fun _ _ _ => trivial
  exact run_invariant (fun state action next holds _ stepped => keeps state action next holds stepped)
    initial free ran

/-- A run without end.  A `none` action is a moment at which nothing happens, so that a
run that stops is one too. -/
structure Unbounded (step : State → Action → Option State) (start : State) where
  state : ℕ → State
  action : ℕ → Option Action
  state_zero : state 0 = start
  idle : ∀ time, action time = none → state (time + 1) = state time
  moves : ∀ time happened, action time = some happened →
    step (state time) happened = some (state (time + 1))

def Unbounded.income {start : State} (trace : Unbounded step start) (income : Action → ℕ)
    (time : ℕ) : ℕ :=
  match trace.action time with
  | none => 0
  | some happened => income happened

/-- The potential rule: a potential that grows by no more than what the actions bring in stays
below what they have brought in so far. -/
theorem Unbounded.potential_le {start : State} (trace : Unbounded step start)
    {inv : State → Prop} {potential : State → ℕ} {income : Action → ℕ} (initial : inv start)
    (keeps : ∀ state action next, inv state → step state action = some next → inv next)
    (pays : ∀ state action next, inv state → step state action = some next →
      potential next ≤ potential state + income action) (time : ℕ) :
    inv (trace.state time) ∧ potential (trace.state time) ≤
      potential start + ∑ moment ∈ Finset.range time, trace.income income moment := by
  induction time with
  | zero => simp [trace.state_zero, initial]
  | succ time ih =>
      obtain ⟨kept, below⟩ := ih
      rw [Finset.sum_range_succ]
      cases happened : trace.action time with
      | none =>
          rw [trace.idle time happened]
          exact ⟨kept, by omega⟩
      | some action =>
          have stepped := trace.moves time action happened
          have paid := pays _ _ _ kept stepped
          have gained : trace.income income time = income action := by
            simp only [Unbounded.income, happened]
          exact ⟨keeps _ _ _ kept stepped, by omega⟩

theorem sum_le_of_finite_support {income : ℕ → ℕ} (finite : {time | income time ≠ 0}.Finite) :
    ∃ bound, ∀ time, ∑ moment ∈ Finset.range time, income moment ≤ bound := by
  refine ⟨∑ moment ∈ finite.toFinset, income moment, fun time => ?_⟩
  refine Finset.sum_le_sum_of_ne_zero fun moment _ nonzero => ?_
  simpa using nonzero

theorem Unbounded.bounded {start : State} (trace : Unbounded step start)
    (inv : State → Prop) (potential : State → ℕ) {income : Action → ℕ} (initial : inv start)
    (keeps : ∀ state action next, inv state → step state action = some next → inv next)
    (pays : ∀ state action next, inv state → step state action = some next →
      potential next ≤ potential state + income action)
    (finite : {time | trace.income income time ≠ 0}.Finite) :
    ∃ bound, ∀ time, potential (trace.state time) ≤ bound := by
  obtain ⟨most, limited⟩ := sum_le_of_finite_support finite
  refine ⟨potential start + most, fun time => ?_⟩
  have below := (trace.potential_le initial keeps pays time).2
  have := limited time
  omega

theorem sum_update {Place Item : Type*} [Fintype Place] [DecidableEq Place]
    (weight : Place → Item → ℕ) (held : Place → Item) (place : Place) (item : Item) :
    ∑ each, weight each (Function.update held place item each) + weight place (held place) =
      ∑ each, weight each (held each) + weight place item := by
  have elsewhere : ∑ each ∈ Finset.univ.erase place,
      weight each (Function.update held place item each) =
        ∑ each ∈ Finset.univ.erase place, weight each (held each) :=
    Finset.sum_congr rfl fun each inside => by
      rw [Function.update_of_ne (Finset.ne_of_mem_erase inside)]
  rw [← Finset.add_sum_erase _ _ (Finset.mem_univ place),
    ← Finset.add_sum_erase (Finset.univ) (fun each => weight each (held each))
      (Finset.mem_univ place), elsewhere, Function.update_self]
  omega

end Transition
