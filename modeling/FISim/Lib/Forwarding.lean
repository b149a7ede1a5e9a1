import FISim.Lib.ShortestPaths
import FISim.Lib.Transition
import Mathlib.Order.Lattice.Nat
import Mathlib.Order.WellFounded

/-!
Hops from vertex to vertex that each begin some shortest path to a goal.  However they
are chosen, what was crossed and what is still to cross are a shortest path together.
-/

namespace ShortestPaths

namespace WeightedGraph

open Transition

universe u v w

variable {Vertex : Type u} {Arc : Type v} {Choice : Type w} {graph : WeightedGraph Vertex Arc}
  {root vertex goal : Vertex} {path rest : List Arc}

theorem length_le_cost (positive : ∀ arc ∈ path, 1 ≤ graph.weight arc) :
    path.length ≤ graph.cost path := by
  induction path with
  | nil => exact Nat.le_refl 0
  | cons arc path ih =>
      have first := positive arc List.mem_cons_self
      have later := ih fun other member => positive other (List.mem_cons_of_mem _ member)
      rw [List.length_cons, cost_cons]
      omega

theorem Shortest.of_cons {arc : Arc} (shortest : graph.Shortest root (arc :: rest) goal) :
    graph.leaves root arc ∧ graph.Shortest (graph.target arc) rest goal := by
  obtain ⟨leaves, after⟩ := shortest.1.of_cons
  refine ⟨leaves, after, fun other elsewhere => ?_⟩
  have first : graph.Path root ([] ++ [arc]) (graph.target arc) := .step .start leaves
  have least := shortest.2 _ (first.join elsewhere)
  rw [List.nil_append, List.singleton_append, cost_cons, cost_cons] at least
  omega

theorem Shortest.change {other : List Arc} (shortest : graph.Shortest root (path ++ rest) goal)
    (before : graph.Path root path vertex) (after : graph.Shortest vertex rest goal)
    (way : graph.Shortest vertex other goal) : graph.Shortest root (path ++ other) goal := by
  refine ⟨before.join way.1, fun elsewhere reached => ?_⟩
  have least := shortest.2 elsewhere reached
  rwa [cost_join, way.cost_eq after, ← cost_join]

theorem Path.exists_shortest (reached : graph.Path root path goal) :
    ∃ least, graph.Shortest root least goal := by
  let costs : Set ℕ := { cost | ∃ other, graph.Path root other goal ∧ graph.cost other = cost }
  have some : costs.Nonempty := ⟨_, path, reached, rfl⟩
  obtain ⟨least, way, same⟩ := Nat.sInf_mem some
  refine ⟨least, way, fun other elsewhere => ?_⟩
  rw [same]
  exact Nat.sInf_le ⟨other, elsewhere, rfl⟩

/-- A hop goes by the first arc of some shortest path to the goal. -/
def Approaches (graph : WeightedGraph Vertex Arc) (goal : Vertex)
    (hop : Vertex → Choice → Option Arc) : Prop :=
  ∀ vertex path choice arc, graph.Shortest vertex path goal → hop vertex choice = some arc →
    ∃ rest, graph.Shortest vertex (arc :: rest) goal

/-- One hop, with the arcs that have been crossed. -/
def cross (graph : WeightedGraph Vertex Arc) (hop : Vertex → Choice → Option Arc)
    (place : Vertex × List Arc) (choice : Choice) : Option (Vertex × List Arc) :=
  (hop place.1 choice).map fun arc => (graph.target arc, place.2 ++ [arc])

theorem Approaches.run {hop : Vertex → Choice → Option Arc} (approaches : graph.Approaches goal hop)
    (shortest : graph.Shortest root path goal) {choices : List Choice} {walk : List Arc}
    (ran : Transition.run (graph.cross hop) (root, []) choices = some (vertex, walk)) :
    walk.length = choices.length ∧ graph.Path root walk vertex ∧
      ∃ rest, graph.Shortest vertex rest goal ∧ graph.Shortest root (walk ++ rest) goal := by
  induction choices using List.reverseRecOn generalizing vertex walk with
  | nil =>
      obtain ⟨rfl, rfl⟩ := Prod.mk.inj (Option.some.inj ran)
      exact ⟨rfl, .start, path, shortest, shortest⟩
  | append_singleton choices choice ih =>
      obtain ⟨⟨middle, walk⟩, before, last⟩ := run_concat ran
      obtain ⟨length, crossed, rest, after, whole⟩ := ih before
      obtain ⟨arc, hopped, same⟩ := Option.map_eq_some_iff.mp last
      obtain ⟨rfl, rfl⟩ := Prod.mk.inj same
      obtain ⟨onward, way⟩ := approaches middle rest choice arc after hopped
      obtain ⟨leaves, remains⟩ := way.of_cons
      refine ⟨by simp [length], crossed.step leaves, onward, remains, ?_⟩
      rw [List.append_assoc]
      exact whole.change crossed after way

end WeightedGraph

end ShortestPaths
