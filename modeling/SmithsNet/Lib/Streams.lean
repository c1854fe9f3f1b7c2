import Mathlib

/-!
# SmithsNet.Lib.Streams

What comes out of a channel: items that are lost, that arrive more than once, or that
arrive in another order.

* `nodup_destutter_iff` — a receiver that only remembers the last item it took takes no
  item twice exactly when no other item comes between two copies of one;
* `Received` — in-order arrival with losses and copies; `Received.mem`.
-/

namespace SmithsNet.Lib

variable {α : Type}

/-! ## remembering the last item -/

/-- No other item comes between two copies of one. -/
def Unmixed (l : List α) : Prop := ∀ p q, [p, q, p].Sublist l → q = p

theorem unmixed_nil : Unmixed ([] : List α) := by
  intro p q h
  contradiction

theorem unmixed_singleton (a : α) : Unmixed [a] := by
  intro p q h
  exact absurd h.length_le (by simp)

theorem unmixed_cons_self {a : α} {l : List α} : Unmixed (a :: a :: l) ↔ Unmixed (a :: l) := by
  constructor
  · intro h p q hsub
    exact h p q (hsub.cons a)
  · intro h p q hsub
    obtain hsub | ⟨rfl, hsub⟩ : [p, q, p].Sublist (a :: l) ∨ p = a ∧ [q, p].Sublist (a :: l) := by
      cases hsub with
      | cons _ hsub => exact .inl hsub
      | cons_cons _ hsub => exact .inr ⟨rfl, hsub⟩
    · exact h p q hsub
    · cases hsub with
      | cons _ hsub => exact h p q (hsub.cons_cons p)
      | cons_cons _ _ => rfl

theorem unmixed_cons_ne {a b : α} {l : List α} (h : a ≠ b) :
    Unmixed (a :: b :: l) ↔ a ∉ b :: l ∧ Unmixed (b :: l) := by
  constructor
  · intro hall
    refine ⟨?_, fun p q hsub => hall p q (hsub.cons a)⟩
    intro hmem
    obtain heq | hmem := List.mem_cons.mp hmem
    · exact h heq
    · have hcopies : [a, b, a].Sublist (a :: b :: l) :=
        ((List.singleton_sublist.mpr hmem).cons_cons b).cons_cons a
      exact h (hall a b hcopies).symm
  · rintro ⟨hnot, hall⟩ p q hsub
    cases hsub with
    | cons _ hsub => exact hall p q hsub
    | cons_cons _ hsub =>
      exact absurd (hsub.subset (List.mem_cons_of_mem q (List.mem_singleton_self a))) hnot

section Destutter

variable [DecidableEq α]

theorem mem_destutter'_iff {a b : α} {l : List α} : b ∈ l.destutter' (· ≠ ·) a ↔ b = a ∨ b ∈ l := by
  induction l generalizing a with
  | nil => simp
  | cons c l ih =>
    by_cases h : a = c
    · subst h
      rw [List.destutter'_cons_neg l (not_not_intro rfl), ih, List.mem_cons]
      grind
    · rw [List.destutter'_cons_pos l h, List.mem_cons, ih, List.mem_cons]

theorem nodup_destutter'_iff (a : α) (l : List α) :
    (l.destutter' (· ≠ ·) a).Nodup ↔ Unmixed (a :: l) := by
  induction l generalizing a with
  | nil => exact iff_of_true (List.nodup_singleton a) (unmixed_singleton a)
  | cons b l ih =>
    by_cases h : a = b
    · subst h
      rw [List.destutter'_cons_neg l (not_not_intro rfl), ih, unmixed_cons_self]
    · rw [List.destutter'_cons_pos l h, List.nodup_cons, ih, unmixed_cons_ne h,
        mem_destutter'_iff, ← List.mem_cons]

/-- Dropping repetitions leaves no item twice exactly when the copies of each item come
one after the other. -/
theorem nodup_destutter_iff (l : List α) : (l.destutter (· ≠ ·)).Nodup ↔ Unmixed l := by
  cases l with
  | nil => exact iff_of_true List.nodup_nil unmixed_nil
  | cons a l => exact nodup_destutter'_iff a l

end Destutter

/-! ## loss and duplication -/

/-- What arrives of the items sent, in order: an item may be lost or arrive any number of
times. -/
inductive Received : List α → List α → Prop
  | nil : Received [] []
  | lost (a : α) {rs ss : List α} : Received rs ss → Received rs (a :: ss)
  | copy (a : α) {rs ss : List α} : Received rs (a :: ss) → Received (a :: rs) (a :: ss)

theorem Received.mem {rs ss : List α} (h : Received rs ss) {a : α} (ha : a ∈ rs) : a ∈ ss := by
  induction h with
  | nil => exact ha
  | lost b _ ih => exact List.mem_cons_of_mem b (ih ha)
  | copy b _ ih =>
    obtain rfl | ha := List.mem_cons.mp ha
    · exact List.mem_cons_self
    · exact ih ha

theorem Received.refl (ss : List α) : Received ss ss := by
  induction ss with
  | nil => exact .nil
  | cons a ss ih => exact .copy a (.lost a ih)

end SmithsNet.Lib
