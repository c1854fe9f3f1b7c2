import Mathlib

/-!
# SmithsNet.Lib.Like

Patterns of a text query, as in SQL's `LIKE`: elements that stand for themselves, one of them
that stands for any one element and one for any number of them, and an escape in front of one
that is to be taken literally.  Elements are compared by what a folding makes of them.

* `runs_literals_many` — literals and then anything: what begins with them;
* `runs_many_literals_many` — anything on both sides: what contains them;
* `runs_of_literals` — read as a pattern, a text still stands for itself.
-/

namespace SmithsNet.Lib

/-- One element of a pattern. -/
inductive Wild (α : Type)
  | many
  | one
  | literal (a : α)

namespace Wild

variable {α β : Type} [DecidableEq β]

/-- Whether a text is what the pattern stands for. -/
def runs (fold : α → β) : List (Wild α) → List α → Bool
  | [], s => s.isEmpty
  | .many :: ps, s => s.tails.any (runs fold ps)
  | .one :: _, [] => false
  | .one :: ps, _ :: s => runs fold ps s
  | .literal _ :: _, [] => false
  | .literal a :: ps, c :: s => fold a == fold c && runs fold ps s

variable {fold : α → β} {ps : List (Wild α)} {s w : List α}

@[simp] theorem runs_nil : runs fold [] s = true ↔ s = [] := by simp [runs]

theorem runs_many : runs fold (.many :: ps) s = true ↔ ∃ rest, rest <:+ s ∧ runs fold ps rest = true := by
  simp [runs, List.any_eq_true, List.mem_tails]

theorem runs_literal : runs fold (.literal a :: ps) s = true ↔
    ∃ c rest, s = c :: rest ∧ fold a = fold c ∧ runs fold ps rest = true := by
  cases s with
  | nil => simp [runs]
  | cons c s => simp [runs]

theorem runs_literals_many : runs fold (w.map .literal ++ [.many]) s = true ↔ w.map fold <+: s.map fold := by
  induction w generalizing s with
  | nil =>
    refine iff_of_true (runs_many.mpr ⟨[], List.nil_suffix, ?_⟩) List.nil_prefix
    simp
  | cons a w ih =>
    rw [List.map_cons, List.cons_append, runs_literal]
    constructor
    · rintro ⟨c, rest, rfl, hfold, hrest⟩
      rw [List.map_cons, List.map_cons, hfold]
      exact List.cons_prefix_cons.mpr ⟨rfl, ih.mp hrest⟩
    · intro hprefix
      cases s with
      | nil => exact absurd (List.prefix_nil.mp hprefix) (List.cons_ne_nil _ _)
      | cons c rest =>
        obtain ⟨hfold, hrest⟩ := List.cons_prefix_cons.mp hprefix
        exact ⟨c, rest, rfl, hfold, ih.mpr hrest⟩

theorem runs_many_literals_many :
    runs fold (.many :: (w.map .literal ++ [.many])) s = true ↔ w.map fold <:+: s.map fold := by
  rw [runs_many]
  constructor
  · rintro ⟨rest, hrest, hruns⟩
    exact (runs_literals_many.mp hruns).isInfix.trans (hrest.map fold).isInfix
  · intro hinfix
    obtain ⟨t, hprefix, hsuffix⟩ := List.infix_iff_prefix_suffix.mp hinfix
    obtain ⟨rest, hrest, rfl⟩ := List.suffix_map_iff.mp hsuffix
    exact ⟨rest, hrest, runs_literals_many.mpr hprefix⟩

/-- A text whose elements are read as a pattern still stands for itself. -/
theorem runs_of_literals {read : α → Wild α} (hread : ∀ a, read a = .literal a ∨ read a = .one ∨ read a = .many)
    (h : runs fold (w.map .literal ++ ps) s = true) : runs fold (w.map read ++ ps) s = true := by
  induction w generalizing s with
  | nil => exact h
  | cons a w ih =>
    rw [List.map_cons, List.cons_append, runs_literal] at h
    obtain ⟨c, rest, rfl, hfold, hrest⟩ := h
    rw [List.map_cons, List.cons_append]
    obtain hkind | hkind | hkind := hread a
    · rw [hkind]
      exact runs_literal.mpr ⟨c, rest, rfl, hfold, ih hrest⟩
    · rw [hkind]
      exact ih hrest
    · rw [hkind]
      exact runs_many.mpr ⟨rest, List.suffix_cons c rest, ih hrest⟩

end Wild

end SmithsNet.Lib
