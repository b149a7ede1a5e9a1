import Mathlib.Data.List.Nodup
import Mathlib.Data.List.Pairwise
import Mathlib.Data.Set.Basic

/-!
Keeping the first of what shares a key.  Every item has some keys, and an item is taken
unless one of its keys belongs to an item that was taken before it.
-/

namespace FirstOnly

universe u v

variable {Item : Type u} {Key : Type v} {keys : Item → Set Key}

def Shares (keys : Item → Set Key) (one two : Item) : Prop := ∃ key ∈ keys one, key ∈ keys two

theorem Shares.symm {one two : Item} (shares : Shares keys one two) : Shares keys two one := by
  obtain ⟨key, first, second⟩ := shares
  exact ⟨key, second, first⟩

theorem Shares.self {item : Item} (some : (keys item).Nonempty) : Shares keys item item := by
  obtain ⟨key, member⟩ := some
  exact ⟨key, member, member⟩

structure Taken (keys : Item → Set Key) (taken items : List Item) : Prop where
  subset : ∀ item ∈ taken, item ∈ items
  apart : taken.Pairwise fun one two => ¬ Shares keys one two
  covers : ∀ item ∈ items, ∃ old ∈ taken, Shares keys old item

theorem Taken.nil : Taken keys [] [] :=
  ⟨fun _ member => member, List.Pairwise.nil, fun _ member => absurd member List.not_mem_nil⟩

theorem Taken.skip {taken items : List Item} {item : Item} (held : Taken keys taken items)
    (shared : ∃ old ∈ taken, Shares keys old item) : Taken keys taken (items ++ [item]) := by
  refine ⟨fun old member => List.mem_append_left _ (held.subset old member), held.apart, ?_⟩
  intro other member
  rcases List.mem_append.mp member with old | new
  · exact held.covers other old
  · rw [List.mem_singleton.mp new]
    exact shared

theorem Taken.take {taken items : List Item} {item : Item} (held : Taken keys taken items)
    (some : (keys item).Nonempty) (free : ¬ ∃ old ∈ taken, Shares keys old item) :
    Taken keys (taken ++ [item]) (items ++ [item]) := by
  refine ⟨?_, ?_, ?_⟩
  · intro other member
    rcases List.mem_append.mp member with old | new
    · exact List.mem_append_left _ (held.subset other old)
    · exact List.mem_append_right _ new
  · refine List.pairwise_append.mpr ⟨held.apart, List.pairwise_singleton _ _, ?_⟩
    intro old member other new shares
    rw [List.mem_singleton.mp new] at shares
    exact free ⟨old, member, shares⟩
  · intro other member
    rcases List.mem_append.mp member with old | new
    · obtain ⟨first, inside, shares⟩ := held.covers other old
      exact ⟨first, List.mem_append_left _ inside, shares⟩
    · rw [List.mem_singleton.mp new]
      exact ⟨item, List.mem_append_right _ List.mem_cons_self, .self some⟩

theorem Taken.nodup {taken items : List Item} (some : ∀ item, (keys item).Nonempty)
    (held : Taken keys taken items) : taken.Nodup := by
  apply held.apart.imp
  rintro one _ free rfl
  exact free (.self (some one))

theorem Taken.all_iff {taken items : List Item} (held : Taken keys taken items) :
    (∀ item ∈ items, item ∈ taken) ↔
      ∀ one ∈ items, ∀ two ∈ items, Shares keys one two → one = two := by
  constructor
  · intro all one first two second shares
    by_contra different
    have : Std.Symm fun one two : Item => ¬ Shares keys one two :=
      ⟨fun _ _ free shares => free shares.symm⟩
    exact held.apart.forall (all one first) (all two second) different shares
  · intro unshared item member
    obtain ⟨old, inside, shares⟩ := held.covers item member
    rwa [unshared old (held.subset old inside) item member shares] at inside

theorem Taken.count_iff [DecidableEq Item] {taken items : List Item}
    (some : ∀ item, (keys item).Nonempty) (held : Taken keys taken items) :
    (∀ item, taken.count item = if item ∈ items then 1 else 0) ↔
      ∀ one ∈ items, ∀ two ∈ items, Shares keys one two → one = two := by
  rw [← held.all_iff]
  constructor
  · intro counted item member
    apply List.count_pos_iff.mp
    rw [counted, if_pos member]
    exact Nat.one_pos
  · intro all item
    split
    · rename_i member
      exact List.count_eq_one_of_mem (held.nodup some) (all item member)
    · rename_i absent
      exact List.count_eq_zero.mpr fun member => absent (held.subset item member)

end FirstOnly
