import Mathlib

/-!
# SmithsNet.Lib.Slots

Operations in progress as the entries of a list: one begins at its end, one of
them moves on in its place, and what is found at a place afterwards is either
what was there or what was put there.
-/

namespace SmithsNet.Lib

variable {φ : Type} {fs : List φ} {f g : φ} {n m : Nat}

theorem slot_set (h : (fs.set n g)[m]? = some f) : m ≠ n ∧ fs[m]? = some f ∨ m = n ∧ f = g := by
  rw [List.getElem?_set] at h
  split at h
  · next hn =>
    split at h
    · exact .inr ⟨hn.symm, (Option.some.inj h).symm⟩
    · contradiction
  · next hn => exact .inl ⟨Ne.symm hn, h⟩

theorem slot_modify {change : φ → φ} (h : (fs.modify n change)[m]? = some f) :
    ∃ g, fs[m]? = some g ∧ f = if n = m then change g else g := by
  rw [List.getElem?_modify] at h
  obtain ⟨g, hg, rfl⟩ := Option.map_eq_some_iff.mp h
  exact ⟨g, hg, by split <;> rfl⟩

theorem map_getElem?_modify {ψ : Type} {view : φ → ψ} {change : φ → φ} (h : ∀ g, view (change g) = view g) :
    (fs.modify n change)[m]?.map view = fs[m]?.map view := by
  rw [List.getElem?_modify]
  cases fs[m]? with
  | none => rfl
  | some g =>
    simp only [Option.map_eq_map, Option.map_some]
    split
    · rw [h]
    · rfl

theorem slot_append (h : (fs ++ [g])[m]? = some f) : fs[m]? = some f ∨ f = g := by
  rw [List.getElem?_append] at h
  split at h
  · exact .inl h
  · exact .inr (List.mem_singleton.mp (List.mem_of_getElem? h))

theorem mem_set_of_mem (h : f ∈ fs) : fs[n]? = some f ∨ f ∈ fs.set n g := by
  obtain ⟨m, hm⟩ := List.getElem?_of_mem h
  by_cases hmn : n = m
  · exact .inl (hmn ▸ hm)
  · exact .inr (List.mem_of_getElem? ((List.getElem?_set_ne hmn).trans hm))

theorem mem_set_self (h : fs[n]? = some f) : g ∈ fs.set n g := by
  obtain ⟨hlt, -⟩ := List.getElem?_eq_some_iff.mp h
  exact List.mem_set hlt g

end SmithsNet.Lib
