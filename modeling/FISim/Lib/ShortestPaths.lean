import Mathlib.Algebra.GroupWithZero.Nat
import Mathlib.Data.List.Induction
import Mathlib.Data.List.Nodup
import Mathlib.Data.Prod.Lex

/-!
Paths through a graph with weighted arcs, as the lists of their arcs, and the shortest
ones to a vertex.  A search that settles the nearest open vertex each time rests on
`Path.bound`: what no arc out of the settled vertices undercuts, no path to an open vertex
undercuts.
-/

namespace ShortestPaths

universe u v

structure WeightedGraph (Vertex : Type u) (Arc : Type v) where
  leaves : Vertex → Arc → Prop
  target : Arc → Vertex
  weight : Arc → ℕ

namespace WeightedGraph

variable {Vertex : Type u} {Arc : Type v} (graph : WeightedGraph Vertex Arc) (root : Vertex)

inductive Path : List Arc → Vertex → Prop
  | start : Path [] root
  | step {path : List Arc} {vertex : Vertex} {arc : Arc} : Path path vertex →
      graph.leaves vertex arc → Path (path ++ [arc]) (graph.target arc)

def cost (path : List Arc) : ℕ := (path.map graph.weight).sum

def Shortest (path : List Arc) (vertex : Vertex) : Prop :=
  graph.Path root path vertex ∧
    ∀ other, graph.Path root other vertex → graph.cost path ≤ graph.cost other

variable {graph root}

@[simp] theorem cost_nil : graph.cost [] = 0 := rfl

@[simp] theorem cost_append (path : List Arc) (arc : Arc) :
    graph.cost (path ++ [arc]) = graph.cost path + graph.weight arc := by
  simp [cost]

@[simp] theorem cost_cons (arc : Arc) (path : List Arc) :
    graph.cost (arc :: path) = graph.weight arc + graph.cost path := by
  simp [cost]

theorem cost_join (path rest : List Arc) :
    graph.cost (path ++ rest) = graph.cost path + graph.cost rest := by
  simp [cost]

theorem Path.of_append {path : List Arc} {arc : Arc} {vertex : Vertex}
    (reached : graph.Path root (path ++ [arc]) vertex) :
    ∃ before, graph.Path root path before ∧ graph.leaves before arc ∧
      graph.target arc = vertex := by
  generalize whole : path ++ [arc] = all at reached
  cases reached with
  | start => simp at whole
  | step earlier leaves =>
      obtain ⟨rfl, last⟩ := List.append_inj' whole rfl
      obtain rfl := List.singleton_inj.mp last
      exact ⟨_, earlier, leaves, rfl⟩

theorem Path.of_nil {vertex : Vertex} (reached : graph.Path root [] vertex) : vertex = root := by
  generalize whole : ([] : List Arc) = all at reached
  cases reached with
  | start => rfl
  | step => simp at whole

theorem Path.leaves_of_mem {path : List Arc} {vertex : Vertex}
    (reached : graph.Path root path vertex) {arc : Arc} (crossed : arc ∈ path) : ∃ before, graph.leaves before arc := by
  induction reached with
  | start => cases crossed
  | step earlier leaves ih =>
      rcases List.mem_append.mp crossed with before | last
      · exact ih before
      · obtain rfl := List.mem_singleton.mp last
        exact ⟨_, leaves⟩

theorem Path.join {path rest : List Arc} {vertex goal : Vertex}
    (before : graph.Path root path vertex) (after : graph.Path vertex rest goal) :
    graph.Path root (path ++ rest) goal := by
  induction after with
  | start => simpa using before
  | step earlier leaves ih =>
      rw [← List.append_assoc]
      exact ih.step leaves

theorem Path.of_cons {arc : Arc} {rest : List Arc} {goal : Vertex}
    (reached : graph.Path root (arc :: rest) goal) :
    graph.leaves root arc ∧ graph.Path (graph.target arc) rest goal := by
  induction rest using List.reverseRecOn generalizing goal with
  | nil =>
      rw [← List.nil_append [arc]] at reached
      obtain ⟨before, empty, leaves, rfl⟩ := reached.of_append
      obtain rfl := empty.of_nil
      exact ⟨leaves, .start⟩
  | append_singleton rest last ih =>
      rw [← List.cons_append] at reached
      obtain ⟨before, earlier, leaves, rfl⟩ := reached.of_append
      obtain ⟨first, after⟩ := ih earlier
      exact ⟨first, after.step leaves⟩

theorem Path.exists_prefix {path : List Arc} {vertex : Vertex}
    (reached : graph.Path root path vertex) {passed : Vertex}
    (member : passed ∈ root :: path.map graph.target) :
    ∃ first, first <+: path ∧ graph.Path root first passed := by
  induction reached with
  | start =>
      obtain rfl := List.mem_singleton.mp member
      exact ⟨[], List.prefix_refl [], .start⟩
  | @step path vertex arc earlier leaves ih =>
      rw [List.map_append, ← List.cons_append] at member
      rcases List.mem_append.mp member with before | last
      · obtain ⟨first, within, way⟩ := ih before
        exact ⟨first, within.trans (List.prefix_append _ _), way⟩
      · obtain rfl := List.mem_singleton.mp last
        exact ⟨_, List.prefix_refl _, earlier.step leaves⟩

theorem cost_le_of_prefix {first path : List Arc} (within : first <+: path) :
    graph.cost first ≤ graph.cost path := by
  obtain ⟨rest, rfl⟩ := within
  simp [cost]

theorem Path.exists_nodup {path : List Arc} {vertex : Vertex}
    (reached : graph.Path root path vertex) :
    ∃ simple, graph.Path root simple vertex ∧ graph.cost simple ≤ graph.cost path ∧
      (root :: simple.map graph.target).Nodup := by
  induction reached with
  | start => exact ⟨[], .start, Nat.le_refl _, List.nodup_singleton root⟩
  | @step path vertex arc earlier leaves ih =>
      obtain ⟨simple, way, cheap, distinct⟩ := ih
      by_cases passed : graph.target arc ∈ root :: simple.map graph.target
      · obtain ⟨first, within, back⟩ := way.exists_prefix passed
        refine ⟨first, back, ?_, ?_⟩
        · have less : graph.cost first ≤ graph.cost simple := cost_le_of_prefix within
          rw [cost_append]
          omega
        · exact distinct.sublist ((within.sublist.map graph.target).cons_cons root)
      · refine ⟨simple ++ [arc], way.step leaves, ?_, ?_⟩
        · rw [cost_append, cost_append]
          omega
        · rw [List.map_append, ← List.cons_append]
          refine List.Nodup.append distinct (List.nodup_singleton _) ?_
          exact List.disjoint_singleton.mpr passed

theorem Shortest.of_append {path : List Arc} {arc : Arc} {vertex : Vertex}
    (shortest : graph.Shortest root (path ++ [arc]) vertex) :
    ∃ before, graph.Shortest root path before ∧ graph.leaves before arc ∧
      graph.target arc = vertex := by
  obtain ⟨before, reached, leaves, rfl⟩ := shortest.1.of_append
  refine ⟨before, ⟨reached, fun other elsewhere => ?_⟩, leaves, rfl⟩
  have least := shortest.2 _ (elsewhere.step leaves)
  rw [cost_append, cost_append] at least
  omega

theorem Shortest.cost_eq {path other : List Arc} {vertex : Vertex}
    (first : graph.Shortest root path vertex) (second : graph.Shortest root other vertex) :
    graph.cost path = graph.cost other :=
  Nat.le_antisymm (first.2 other second.1) (second.2 path first.1)

/-- A measure that no arc lowers and that no arc out of the settled vertices brings under a bound is
not under it for an open vertex. -/
theorem Path.bound {Key : Type*} [Preorder Key] (measure : List Arc → Vertex → Key)
    (rises : ∀ {path vertex arc}, graph.leaves vertex arc →
      measure path vertex ≤ measure (path ++ [arc]) (graph.target arc))
    (settled : Vertex → Prop) (first : settled root) {near : Key}
    (frontier : ∀ {path vertex arc}, graph.Path root path vertex → settled vertex →
      graph.leaves vertex arc → ¬ settled (graph.target arc) →
      near ≤ measure (path ++ [arc]) (graph.target arc))
    {path : List Arc} {vertex : Vertex} (reached : graph.Path root path vertex)
    (outside : ¬ settled vertex) : near ≤ measure path vertex := by
  induction reached with
  | start => exact absurd first outside
  | @step path vertex arc earlier leaves ih =>
      by_cases inside : settled vertex
      · exact frontier earlier inside leaves outside
      · exact (ih inside).trans (rises leaves)

/-- A potential that is at most the weight higher after each arc is below the cost of every path. -/
theorem Path.potential_le (potential : Vertex → ℕ) (start : potential root = 0)
    (rises : ∀ vertex arc, graph.leaves vertex arc →
      potential (graph.target arc) ≤ potential vertex + graph.weight arc)
    {path : List Arc} {vertex : Vertex} (reached : graph.Path root path vertex) :
    potential vertex ≤ graph.cost path := by
  induction reached with
  | start => rw [start, cost_nil]
  | @step path vertex arc earlier leaves ih =>
      have more := rises vertex arc leaves
      rw [cost_append]
      omega

/-- Arcs without weight climb in rank, so that of the vertices at one distance those of lower rank
are nearer. -/
def Climbs (graph : WeightedGraph Vertex Arc) (rank : Vertex → ℕ) : Prop :=
  ∀ vertex arc, graph.leaves vertex arc → graph.weight arc = 0 →
    rank vertex < rank (graph.target arc)

theorem Climbs.key_lt {rank : Vertex → ℕ} (climbs : graph.Climbs rank) {vertex : Vertex} {arc : Arc}
    (leaves : graph.leaves vertex arc) (distance : ℕ) :
    toLex (distance, rank vertex) <
      toLex (distance + graph.weight arc, rank (graph.target arc)) := by
  rw [Prod.Lex.toLex_lt_toLex]
  by_cases none : graph.weight arc = 0
  · exact Or.inr ⟨by rw [none]; rfl, climbs vertex arc leaves none⟩
  · refine Or.inl ?_
    change distance < distance + graph.weight arc
    omega

theorem Climbs.root_lt {rank : Vertex → ℕ} (climbs : graph.Climbs rank) {path : List Arc}
    {vertex : Vertex} (reached : graph.Path root path vertex) (some : path ≠ []) :
    toLex (0, rank root) < toLex (graph.cost path, rank vertex) := by
  induction reached with
  | start => exact absurd rfl some
  | @step path vertex arc earlier leaves ih =>
      rw [cost_append]
      by_cases empty : path = []
      · subst empty
        obtain rfl := earlier.of_nil
        exact climbs.key_lt leaves 0
      · exact (ih empty).trans (climbs.key_lt leaves _)

theorem Climbs.shortest_root {rank : Vertex → ℕ} (climbs : graph.Climbs rank) {path : List Arc}
    (shortest : graph.Shortest root path root) : path = [] := by
  by_contra some
  have least := shortest.2 [] .start
  have more := Prod.Lex.toLex_lt_toLex.mp (climbs.root_lt shortest.1 some)
  simp only [cost_nil, lt_irrefl, and_false, or_false] at least more
  omega

end WeightedGraph

end ShortestPaths
