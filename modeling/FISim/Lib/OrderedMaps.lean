import Mathlib.Data.List.Basic
import Mathlib.Order.Lattice

/-!
Maps that are kept in the order of their keys, each key once.  What an operation
does is told by what is found afterwards.
-/

universe u v w x

/-- Keys are compared by their rank. -/
structure OrderedMap {Key : Type u} {Rank : Type v} [LinearOrder Rank] (rank : Key → Rank)
    (Value : Type w) where
  items : List (Key × Value)
  ordered : items.Pairwise fun one two => rank one.1 < rank two.1

namespace OrderedMap

variable {Key : Type u} {Rank : Type v} [LinearOrder Rank] {rank : Key → Rank} {Value : Type w}
  {Image : Type x}

def empty : OrderedMap rank Value := ⟨[], List.Pairwise.nil⟩

def find? (map : OrderedMap rank Value) (key : Key) : Option Value :=
  (map.items.find? fun item => rank item.1 = rank key).map Prod.snd

variable (rank) in
def insertItem (key : Key) (value : Value) : List (Key × Value) → List (Key × Value)
  | [] => [(key, value)]
  | item :: rest =>
      if rank key < rank item.1 then (key, value) :: item :: rest
      else if rank item.1 < rank key then item :: insertItem key value rest
      else (item.1, value) :: rest

theorem mem_insertItem {key : Key} {value : Value} {items : List (Key × Value)}
    {item : Key × Value} (member : item ∈ insertItem rank key value items) :
    rank item.1 = rank key ∨ item ∈ items := by
  induction items with
  | nil =>
      obtain rfl := List.mem_singleton.mp member
      exact Or.inl rfl
  | cons first rest ih =>
      rw [insertItem] at member
      split at member
      · rcases List.mem_cons.mp member with rfl | later
        · exact Or.inl rfl
        · exact Or.inr later
      · split at member
        · rcases List.mem_cons.mp member with rfl | later
          · exact Or.inr List.mem_cons_self
          · exact (ih later).imp_right (List.mem_cons_of_mem first)
        · rename_i notBelow notAbove
          rcases List.mem_cons.mp member with rfl | later
          · exact Or.inl (le_antisymm (not_lt.mp notBelow) (not_lt.mp notAbove))
          · exact Or.inr (List.mem_cons_of_mem first later)

theorem insertItem_ordered (key : Key) (value : Value) {items : List (Key × Value)}
    (ordered : items.Pairwise fun one two => rank one.1 < rank two.1) :
    (insertItem rank key value items).Pairwise fun one two => rank one.1 < rank two.1 := by
  induction items with
  | nil => exact List.pairwise_singleton _ _
  | cons first rest ih =>
      obtain ⟨least, later⟩ := List.pairwise_cons.mp ordered
      rw [insertItem]
      split
      · rename_i below
        refine List.pairwise_cons.mpr ⟨?_, ordered⟩
        intro item member
        rcases List.mem_cons.mp member with rfl | behind
        · exact below
        · exact lt_trans below (least item behind)
      · split
        · rename_i above
          refine List.pairwise_cons.mpr ⟨?_, ih later⟩
          intro item member
          rcases mem_insertItem member with same | behind
          · rwa [same]
          · exact least item behind
        · exact List.pairwise_cons.mpr ⟨least, later⟩

def insert (map : OrderedMap rank Value) (key : Key) (value : Value) : OrderedMap rank Value :=
  ⟨insertItem rank key value map.items, insertItem_ordered key value map.ordered⟩

def map (image : Key → Value → Image) (map : OrderedMap rank Value) : OrderedMap rank Image :=
  ⟨map.items.map fun item => (item.1, image item.1 item.2),
    List.pairwise_map.mpr map.ordered⟩

def filter (keep : Key → Value → Bool) (map : OrderedMap rank Value) : OrderedMap rank Value :=
  ⟨map.items.filter fun item => keep item.1 item.2, map.ordered.filter _⟩

def erase (map : OrderedMap rank Value) (key : Key) : OrderedMap rank Value :=
  map.filter fun other _ => decide (rank other ≠ rank key)

theorem find?_insertItem (key other : Key) (value : Value) (items : List (Key × Value)) :
    ((insertItem rank key value items).find? fun item => rank item.1 = rank other).map
        Prod.snd =
      if rank other = rank key then some value
      else (items.find? fun item => rank item.1 = rank other).map Prod.snd := by
  induction items with
  | nil =>
      by_cases same : rank other = rank key
      · simp [insertItem, same]
      · simp [insertItem, same, Ne.symm same]
  | cons first rest ih =>
      rw [insertItem]
      split
      · by_cases same : rank other = rank key
        · simp [same]
        · simp [List.find?_cons, same, Ne.symm same]
      · split
        · rename_i above
          rw [List.find?_cons, List.find?_cons]
          split
          · rename_i here
            rw [if_neg]
            rw [← of_decide_eq_true here]
            exact ne_of_lt above
          · exact ih
        · rename_i notBelow notAbove
          have same : rank first.1 = rank key :=
            le_antisymm (not_lt.mp notBelow) (not_lt.mp notAbove)
          rw [List.find?_cons, List.find?_cons, same]
          split
          · rename_i here
            rw [if_pos (of_decide_eq_true here).symm, Option.map_some]
          · rename_i elsewhere
            rw [if_neg (Ne.symm (of_decide_eq_false elsewhere))]

theorem find?_insert (map : OrderedMap rank Value) (key other : Key) (value : Value) :
    (map.insert key value).find? other =
      if rank other = rank key then some value else map.find? other :=
  find?_insertItem key other value map.items

theorem find?_map {image : Key → Value → Image} (map : OrderedMap rank Value)
    (respects : ∀ one two value, rank one = rank two → image one value = image two value)
    (key : Key) : (map.map image).find? key = (map.find? key).map (image key) := by
  rw [find?, find?, OrderedMap.map]
  dsimp only
  generalize map.items = items
  induction items with
  | nil => rfl
  | cons first rest ih =>
      rw [List.map_cons]
      by_cases here : rank first.1 = rank key
      · rw [List.find?_cons_of_pos (by simpa using here),
          List.find?_cons_of_pos (by simpa using here), Option.map_some, Option.map_some,
          Option.map_some, respects first.1 key first.2 here]
      · rw [List.find?_cons_of_neg (by simpa using here),
          List.find?_cons_of_neg (by simpa using here)]
        exact ih

theorem find?_eq_some_iff (map : OrderedMap rank Value) {key : Key} {value : Value} :
    map.find? key = some value ↔ ∃ other, rank other = rank key ∧ (other, value) ∈ map.items := by
  obtain ⟨items, ordered⟩ := map
  rw [find?]
  dsimp only
  induction items with
  | nil => simp
  | cons first rest ih =>
      obtain ⟨least, later⟩ := List.pairwise_cons.mp ordered
      by_cases here : rank first.1 = rank key
      · rw [List.find?_cons_of_pos (by simpa using here), Option.map_some, Option.some.injEq]
        constructor
        · rintro rfl
          exact ⟨first.1, here, List.mem_cons_self⟩
        · rintro ⟨other, same, member⟩
          rcases List.mem_cons.mp member with rfl | behind
          · rfl
          · exact absurd (here.trans same.symm) (ne_of_lt (least _ behind))
      · rw [List.find?_cons_of_neg (by simpa using here), ih later]
        refine exists_congr fun other => and_congr_right fun same => ?_
        rw [List.mem_cons, or_iff_right]
        rintro rfl
        exact here same

theorem find?_filter {keep : Key → Value → Bool} (map : OrderedMap rank Value)
    (respects : ∀ one two value, rank one = rank two → keep one value = keep two value)
    (key : Key) : (map.filter keep).find? key = (map.find? key).filter (keep key) := by
  ext value
  rw [Option.filter_eq_some_iff, find?_eq_some_iff, find?_eq_some_iff]
  change (∃ other, _ ∧ (other, value) ∈ map.items.filter _) ↔ _
  simp only [List.mem_filter]
  constructor
  · rintro ⟨other, same, member, kept⟩
    exact ⟨⟨other, same, member⟩, respects other key value same ▸ kept⟩
  · rintro ⟨⟨other, same, member⟩, kept⟩
    exact ⟨other, same, member, respects other key value same ▸ kept⟩

theorem find?_erase (map : OrderedMap rank Value) (key other : Key) :
    (map.erase key).find? other = if rank other = rank key then none else map.find? other := by
  rw [erase, find?_filter]
  · by_cases same : rank other = rank key
    · simp [same]
    · rw [if_neg same]
      cases map.find? other with
      | none => rfl
      | some value => simp [same]
  · intro one two value same
    rw [same]

theorem gathered (map : OrderedMap rank Value) {Item : Type x} (gather : Value → List Item)
    (key : Key) :
    ((map.items.flatMap fun item => (gather item.2).map (Prod.mk item.1)).filter fun pair =>
        rank pair.1 = rank key).map Prod.snd = (map.find? key).elim [] gather := by
  obtain ⟨items, ordered⟩ := map
  rw [find?]
  dsimp only
  have whole : ∀ (other : Key) (values : List Item), rank other = rank key →
      ((values.map (Prod.mk other)).filter fun pair => rank pair.1 = rank key).map Prod.snd =
        values := by
    intro other values same
    rw [List.filter_eq_self.mpr]
    · rw [List.map_map]
      exact List.map_id _
    · intro pair member
      obtain ⟨value, -, rfl⟩ := List.mem_map.mp member
      exact decide_eq_true same
  have nothing : ∀ (other : Key) (values : List Item), rank other ≠ rank key →
      ((values.map (Prod.mk other)).filter fun pair => rank pair.1 = rank key) = [] := by
    intro other values different
    rw [List.filter_eq_nil_iff]
    intro pair member
    obtain ⟨value, -, rfl⟩ := List.mem_map.mp member
    simpa using different
  induction items with
  | nil => rfl
  | cons first rest ih =>
      obtain ⟨least, later⟩ := List.pairwise_cons.mp ordered
      rw [List.flatMap_cons, List.filter_append, List.map_append]
      by_cases here : rank first.1 = rank key
      · have behind : (rest.find? fun item => rank item.1 = rank key) = none := by
          rw [List.find?_eq_none]
          intro item member
          rw [decide_eq_true_eq, ← here]
          exact ne_of_gt (least item member)
        rw [whole _ _ here, ih later, behind, List.find?_cons_of_pos (by simpa using here)]
        exact List.append_nil _
      · rw [nothing _ _ here, List.find?_cons_of_neg (by simpa using here)]
        exact ih later

end OrderedMap
