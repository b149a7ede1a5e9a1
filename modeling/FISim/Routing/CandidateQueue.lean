import FISim.Routing.LinkState
import Mathlib.Data.Prod.Lex

/-!
The candidates as a map from ids to vertices that is kept in the order of their keys:
what `Push`, `Find` and `Reorder` do to it, and what a candidate becomes when the same
LSA is reached once more.
-/

namespace FISim.Routing

section Uniq

variable {Item : Type} [DecidableEq Item]

@[simp] theorem mem_uniq {item : Item} {items : List Item} : item ∈ uniq items ↔ item ∈ items := by
  induction items using uniq.induct with
  | case1 => rfl
  | case2 => rfl
  | case3 next rest ih =>
      simp only [uniq, if_pos, ih, List.mem_cons]
      tauto
  | case4 first next rest different ih => simp only [uniq, if_neg different, List.mem_cons, ih]

end Uniq

def GlobalRoutingLSA.rank (lsa : GlobalRoutingLSA) : ℕ := if lsa.lsType = .routerLSA then 1 else 0

namespace SPFVertex

/-- The order in which the candidates leave the queue. -/
def key (vertex : SPFVertex) : ℕ ×ₗ ℕ := toLex (vertex.distanceFromRoot.toNat, vertex.lsa.rank)

def Known (vertex : SPFVertex) : Prop :=
  vertex.vertexType = .routerLSA ∨ vertex.vertexType = .networkLSA

@[simp] theorem mem_mergeRootExitDirections {vertex v : SPFVertex} {exit : NodeExit} :
    exit ∈ (vertex.mergeRootExitDirections v).ecmpRootExits ↔
      exit ∈ vertex.ecmpRootExits ∨ exit ∈ v.ecmpRootExits := by
  simp [mergeRootExitDirections]

@[simp] theorem mem_mergeParent {vertex v : SPFVertex} {pointer : Ipv4Address → ℕ}
    {id : Ipv4Address} :
    id ∈ (vertex.mergeParent pointer v).parents ↔ id ∈ vertex.parents ∨ id ∈ v.parents := by
  simp [mergeParent]

end SPFVertex

namespace CandidateQueue

theorem compareSPFVertex_iff {v1 v2 : SPFVertex} (first : v1.Known) (second : v2.Known) :
    compareSPFVertex v1 v2 = true ↔ v1.key < v2.key := by
  have same : v1.distanceFromRoot = v2.distanceFromRoot ↔
      v1.distanceFromRoot.toNat = v2.distanceFromRoot.toNat := UInt32.toNat_inj.symm
  rw [SPFVertex.key, SPFVertex.key, Prod.Lex.toLex_lt_toLex]
  simp only [compareSPFVertex, Bool.or_eq_true, Bool.and_eq_true, decide_eq_true_eq,
    UInt32.lt_iff_toNat_lt, same, GlobalRoutingLSA.rank]
  unfold SPFVertex.Known SPFVertex.vertexType at first second
  unfold SPFVertex.vertexType
  rcases first with one | one <;> rcases second with two | two <;> simp [one, two]

/-- The candidates are in the order in which they are popped. -/
def Ordered (candidates : List SPFVertex) : Prop := (candidates.map (·.key)).Pairwise (· ≤ ·)

variable {candidates : List SPFVertex}

theorem push_perm (vNew : SPFVertex) (candidates : List SPFVertex) :
    (push vNew candidates).Perm (vNew :: candidates) := by
  induction candidates with
  | nil => exact List.Perm.refl _
  | cons v rest ih =>
      simp only [push]
      split
      · exact List.Perm.refl _
      · exact (ih.cons v).trans (List.Perm.swap vNew v rest)

theorem push_ordered {vNew : SPFVertex} (new : vNew.Known) (known : ∀ v ∈ candidates, v.Known)
    (ordered : Ordered candidates) : Ordered (push vNew candidates) := by
  induction candidates with
  | nil => simp [push, Ordered]
  | cons v rest ih =>
      obtain ⟨least, ordered⟩ := List.pairwise_cons.mp ordered
      simp only [push]
      split
      · rename_i before
        rw [compareSPFVertex_iff new (known v (by simp))] at before
        refine List.pairwise_cons.mpr ⟨?_, List.pairwise_cons.mpr ⟨least, ordered⟩⟩
        intro key member
        rcases List.mem_cons.mp member with rfl | member
        · exact before.le
        · exact before.le.trans (least key member)
      · rename_i after
        rw [compareSPFVertex_iff new (known v (by simp)), not_lt] at after
        refine List.pairwise_cons.mpr ⟨?_, ih (fun v member => known v (by simp [member])) ordered⟩
        intro key member
        rw [((push_perm vNew rest).map _).mem_iff, List.map_cons, List.mem_cons] at member
        rcases member with rfl | member
        · exact after
        · exact least key member

theorem find_eq_some (distinct : (candidates.map (·.vertexId)).Nodup) {cw : SPFVertex} :
    find candidates cw.vertexId = some cw ↔ cw ∈ candidates := by
  constructor
  · exact List.mem_of_find?_eq_some
  · intro member
    cases found : find candidates cw.vertexId with
    | none =>
        have absent := List.find?_eq_none.mp found cw member
        simp at absent
    | some other =>
        have same : other.vertexId = cw.vertexId := by simpa using List.find?_some found
        rw [List.inj_on_of_nodup_map distinct (List.mem_of_find?_eq_some found) member same]

theorem replace_ids (cw : SPFVertex) (candidates : List SPFVertex) :
    (replace cw candidates).map (·.vertexId) = candidates.map (·.vertexId) := by
  induction candidates with
  | nil => rfl
  | cons v rest ih =>
      simp only [replace]
      split
      · rename_i same
        simp [same]
      · simp [ih]

theorem mem_replace (distinct : (candidates.map (·.vertexId)).Nodup) {old cw : SPFVertex}
    (member : old ∈ candidates) (same : old.vertexId = cw.vertexId) {x : SPFVertex} :
    x ∈ replace cw candidates ↔ x = cw ∨ (x ∈ candidates ∧ x.vertexId ≠ cw.vertexId) := by
  induction candidates with
  | nil => cases member
  | cons v rest ih =>
      obtain ⟨absent, distinct⟩ := List.nodup_cons.mp distinct
      simp only [replace]
      split
      · rename_i here
        have others : ∀ x ∈ rest, x.vertexId ≠ cw.vertexId := by
          intro x inside equal
          exact absent (List.mem_map.mpr ⟨x, inside, equal.trans here.symm⟩)
        simp only [List.mem_cons]
        constructor
        · rintro (rfl | inside)
          · exact Or.inl rfl
          · exact Or.inr ⟨Or.inr inside, others x inside⟩
        · rintro (rfl | ⟨rfl | inside, different⟩)
          · exact Or.inl rfl
          · exact absurd here different
          · exact Or.inr inside
      · rename_i elsewhere
        have later : old ∈ rest := by
          rcases List.mem_cons.mp member with rfl | later
          · exact absurd same elsewhere
          · exact later
        simp only [List.mem_cons, ih distinct later]
        constructor
        · rintro (rfl | rfl | ⟨inside, different⟩)
          · exact Or.inr ⟨Or.inl rfl, elsewhere⟩
          · exact Or.inl rfl
          · exact Or.inr ⟨Or.inr inside, different⟩
        · rintro (rfl | ⟨rfl | inside, different⟩)
          · exact Or.inr (Or.inl rfl)
          · exact Or.inl rfl
          · exact Or.inr (Or.inr ⟨inside, different⟩)

theorem replace_ordered {cw : SPFVertex} (same : ∀ v ∈ candidates, v.vertexId = cw.vertexId →
    v.key = cw.key) (ordered : Ordered candidates) : Ordered (replace cw candidates) := by
  have keys : (replace cw candidates).map (·.key) = candidates.map (·.key) := by
    clear ordered
    induction candidates with
    | nil => rfl
    | cons v rest ih =>
        simp only [replace]
        split
        · rename_i here
          simp [same v (by simp) here]
        · simp [ih fun v member => same v (by simp [member])]
  unfold Ordered
  rw [keys]
  exact ordered

theorem reorder_perm (candidates : List SPFVertex) : (reorder candidates).Perm candidates :=
  List.perm_insertionSort _ candidates

theorem reorder_ordered (known : ∀ v ∈ candidates, v.Known) : Ordered (reorder candidates) := by
  have keys : (reorder candidates).map (·.key) =
      (candidates.map (·.key)).insertionSort (· ≤ ·) := by
    refine List.map_insertionSort _ _ _ _ fun v1 first v2 second => ?_
    rw [compareSPFVertex_iff (known v2 second) (known v1 first), not_lt]
  unfold Ordered
  rw [keys]
  exact List.pairwise_insertionSort _ _

end CandidateQueue

end FISim.Routing
