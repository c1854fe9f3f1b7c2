import Mathlib

/-!
# SmithsNet.Lib.Neighbours

The positions of a list at which a predicate holds, and the pairs of them with none in
between.

* `countP_take_of_neighbours` — from one neighbour to the next the count grows by one;
* `Neighbours.rel_of_marked` — a transitive relation between neighbours relates any two
  marked positions.
-/

namespace SmithsNet.Lib

variable {α : Type} {p : α → Bool} {l : List α} {i j k : Nat}

/-- The predicate holds at the position. -/
def MarkedAt (p : α → Bool) (l : List α) (i : Nat) : Prop := ∃ a, l[i]? = some a ∧ p a = true

/-- Two marked positions with none in between. -/
structure Neighbours (p : α → Bool) (l : List α) (i j : Nat) : Prop where
  lt : i < j
  left : MarkedAt p l i
  right : MarkedAt p l j
  between : ∀ k, i < k → k < j → ¬ MarkedAt p l k

theorem MarkedAt.lt_length (h : MarkedAt p l i) : i < l.length := by
  obtain ⟨a, ha, -⟩ := h
  exact (List.getElem?_eq_some_iff.mp ha).1

theorem markedAt_concat {a : α} : MarkedAt p (l ++ [a]) i ↔ MarkedAt p l i ∨ i = l.length ∧ p a = true := by
  unfold MarkedAt
  rw [List.getElem?_append]
  by_cases hlt : i < l.length
  · rw [if_pos hlt]
    exact ⟨.inl, fun h => h.resolve_right fun hlast => absurd hlast.1 (Nat.ne_of_lt hlt)⟩
  · rw [if_neg hlt, List.getElem?_eq_none (Nat.not_lt.mp hlt)]
    constructor
    · rintro ⟨b, hb, hp⟩
      obtain ⟨hi, rfl⟩ : i - l.length = 0 ∧ a = b := by
        rwa [List.getElem?_singleton, Option.ite_none_right_eq_some, Option.some.injEq] at hb
      exact .inr ⟨by omega, hp⟩
    · rintro (⟨b, hb, -⟩ | ⟨rfl, hp⟩)
      · contradiction
      · exact ⟨a, by rw [Nat.sub_self]; rfl, hp⟩

theorem markedAt_take : MarkedAt p (l.take j) i ↔ i < j ∧ MarkedAt p l i := by
  unfold MarkedAt
  rw [List.getElem?_take]
  split
  · next hlt => exact (and_iff_right hlt).symm
  · next hge => exact iff_of_false nofun fun h => hge h.1

theorem countP_take_succ_of_marked (h : MarkedAt p l i) :
    (l.take (i + 1)).countP p = (l.take i).countP p + 1 := by
  obtain ⟨a, ha, hp⟩ := h
  rw [List.take_add_one, ha, List.countP_append, Option.toList_some, List.countP_singleton, if_pos hp]

theorem countP_take_succ_of_not_marked (h : ¬ MarkedAt p l i) :
    (l.take (i + 1)).countP p = (l.take i).countP p := by
  rw [List.take_add_one, List.countP_append]
  cases ha : l[i]? with
  | none => rfl
  | some a =>
    have hp : ¬ p a = true := fun hp => h ⟨a, ha, hp⟩
    rw [Option.toList_some, List.countP_singleton, if_neg hp, Nat.add_zero]

theorem countP_take_of_neighbours (h : Neighbours p l i j) :
    (l.take j).countP p = (l.take i).countP p + 1 := by
  have hsteady : ∀ n, i + 1 + n ≤ j → (l.take (i + 1 + n)).countP p = (l.take (i + 1)).countP p := by
    intro n
    induction n with
    | zero => exact fun _ => rfl
    | succ n ih =>
      intro hn
      have hnot := h.between (i + 1 + n) (by omega) hn
      rw [← Nat.add_assoc, countP_take_succ_of_not_marked hnot]
      exact ih (Nat.le_of_lt hn)
  have hlast := hsteady (j - (i + 1)) (Nat.le_of_eq (Nat.add_sub_of_le h.lt))
  rwa [Nat.add_sub_of_le h.lt, countP_take_succ_of_marked h.left] at hlast

/-- A relation that neighbours are in, and that a marked position composes, is one between
any two marked positions. -/
theorem Neighbours.rel_of_marked {R : Nat → Nat → Prop}
    (htrans : ∀ i j k, MarkedAt p l j → R i j → R j k → R i k)
    (hneighbours : ∀ i j, Neighbours p l i j → R i j) (hlt : i < j) (hi : MarkedAt p l i)
    (hj : MarkedAt p l j) : R i j := by
  -- on the distance of the two
  generalize hn : j - i = n
  induction n using Nat.strongRecOn generalizing i j with
  | ind n ih =>
    by_cases hmid : ∃ k, i < k ∧ k < j ∧ MarkedAt p l k
    · obtain ⟨k, hik, hkj, hk⟩ := hmid
      have hleft : R i k := ih (k - i) (by omega) hik hi hk rfl
      have hright : R k j := ih (j - k) (by omega) hkj hk hj rfl
      exact htrans i k j hk hleft hright
    · exact hneighbours i j ⟨hlt, hi, hj, fun k hik hkj hk => hmid ⟨k, hik, hkj, hk⟩⟩

end SmithsNet.Lib
