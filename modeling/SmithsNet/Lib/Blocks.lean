import SmithsNet.Lib.Text

/-!
# SmithsNet.Lib.Blocks

Blocks of lines, with a separator of two different elements (`\r\n`): what is written line
by line is split into the same lines, and a block that ends in an empty line is cut there
and nowhere before.

* `splitSub_intercalate` — lines that do not hold the separator are read back;
* `splitOnce_block` — a block of non-empty lines ends at the first empty one;
* `findSub_word` — a word behind a text that does not hold it;
* `pairFree_of_mem_splitSub` — what `split` returns does not hold the separator.
-/

namespace SmithsNet.Lib

open List

variable {α : Type} {a b : α}

/-- The separator `a b` is not in the line. -/
def PairFree (a b : α) (line : List α) : Prop := ¬ [a, b] <:+: line

theorem pairFree_nil : PairFree a b [] := by
  intro h
  exact absurd (List.infix_nil.mp h) (cons_ne_nil _ _)

variable {lines : List (List α)} {line x s pat piece : List α} {c : α}

theorem pairFree_of_not_mem (h : a ∉ line) : PairFree a b line :=
  fun hin => h (hin.subset mem_cons_self)

theorem PairFree.tail {x : α} (h : PairFree a b (x :: line)) : PairFree a b line :=
  fun hin => h (List.infix_cons_iff.mpr (.inr hin))

/-- No separator starts inside a line, whatever starts with `a` comes after it. -/
theorem PairFree.not_prefix (hab : a ≠ b) {x : α} (h : PairFree a b (x :: line)) (rest : List α) :
    ¬ [a, b] <+: x :: (line ++ a :: rest) := by
  intro hpre
  cases line with
  | nil =>
    obtain ⟨-, hpre⟩ := cons_prefix_cons.mp hpre
    obtain ⟨heq, -⟩ := cons_prefix_cons.mp hpre
    exact hab heq.symm
  | cons y line =>
    obtain ⟨hx, hpre⟩ := cons_prefix_cons.mp hpre
    obtain ⟨hy, -⟩ := cons_prefix_cons.mp hpre
    rw [← hx, ← hy] at h
    exact h (List.IsPrefix.isInfix ⟨line, rfl⟩)

theorem PairFree.not_prefix_self {x : α} (h : PairFree a b (x :: line)) : ¬ [a, b] <+: x :: line :=
  fun hpre => h hpre.isInfix

theorem PairFree.append {y : List α} (hx : PairFree a b x) (hy : PairFree a b y) (hseam : a ∉ x ∨ b ∉ y) :
    PairFree a b (x ++ y) := by
  intro hin
  obtain hin | hin | ⟨l, r, hsplit, hl, hr⟩ := List.infix_append_iff.mp hin
  · exact hx hin
  · exact hy hin
  · match l, hsplit with
    | [], hsplit => exact hy (hsplit ▸ hr.isInfix)
    | [c], hsplit =>
      obtain ⟨rfl, rfl⟩ : a = c ∧ [b] = r := List.cons_eq_cons.mp hsplit
      exact hseam.elim (· (hl.subset mem_cons_self)) (· (hr.subset mem_cons_self))
    | c :: d :: l, hsplit =>
      have hlen := congrArg List.length hsplit
      simp only [length_cons, length_append, length_nil] at hlen
      obtain ⟨rfl, rfl⟩ : l = [] ∧ r = [] := ⟨List.length_eq_zero_iff.mp (by omega), List.length_eq_zero_iff.mp (by omega)⟩
      exact hx (hsplit ▸ hl.isInfix)

variable [DecidableEq α]

theorem isPrefixOf_of_not_prefix (h : ¬ pat <+: s) : pat.isPrefixOf s = false := by
  rw [Bool.eq_false_iff]
  exact fun hpre => h <| isPrefixOf_iff_prefix.mp hpre

/-! ## splitting -/

theorem splitGo_line (hab : a ≠ b) (h : PairFree a b line) (cur rest : List α) :
    splitGo [a, b] 0 cur (line ++ a :: b :: rest) = (cur.reverse ++ line) :: splitGo [a, b] 0 [] rest := by
  induction line generalizing cur with
  | nil => simp [splitGo]
  | cons x line ih =>
    have hnot := isPrefixOf_of_not_prefix (h.not_prefix hab (b :: rest))
    rw [cons_append, splitGo, hnot, if_neg Bool.false_ne_true, ih h.tail, reverse_cons, append_assoc]
    rfl

theorem splitGo_last (h : PairFree a b line) (cur : List α) :
    splitGo [a, b] 0 cur line = [cur.reverse ++ line] := by
  induction line generalizing cur with
  | nil => simp [splitGo]
  | cons x line ih =>
    rw [splitGo, isPrefixOf_of_not_prefix h.not_prefix_self, if_neg Bool.false_ne_true, ih h.tail, reverse_cons,
      append_assoc]
    rfl

/-- Lines that are ended are split off one by one. -/
theorem splitSub_block (hab : a ≠ b) (h : ∀ line ∈ lines, PairFree a b line) (rest : List α) :
    splitSub [a, b] ((lines.map (· ++ [a, b])).flatten ++ rest) = lines ++ splitSub [a, b] rest := by
  induction lines with
  | nil => rfl
  | cons line lines ih =>
    have hline := splitGo_line hab (h line mem_cons_self) [] ((lines.map (· ++ [a, b])).flatten ++ rest)
    have hlines := ih fun l hl => h l (mem_cons_of_mem _ hl)
    simp only [splitSub] at hlines ⊢
    simp [hline, hlines]

theorem splitSub_intercalate (hab : a ≠ b) (hne : lines ≠ [])
    (h : ∀ line ∈ lines, PairFree a b line) : splitSub [a, b] ([a, b].intercalate lines) = lines := by
  induction lines with
  | nil => contradiction
  | cons line lines ih =>
    have hline := h line mem_cons_self
    have hlines : ∀ l ∈ lines, PairFree a b l := fun l hl => h l (mem_cons_of_mem _ hl)
    cases lines with
    | nil =>
      rw [intercalate_singleton]
      exact splitGo_last hline []
    | cons next lines =>
      rw [intercalate_cons_cons, append_assoc]
      have hrest := ih (cons_ne_nil _ _) hlines
      exact (splitGo_line hab hline [] _).trans (congrArg (line :: ·) hrest)

/-- No piece holds the separator: what is collected never ends in its half while it goes on
with the other. -/
theorem pairFree_of_mem_splitGo {cur : List α} (hcur : PairFree a b cur.reverse)
    (hjoin : cur.head? = some a → s.head? ≠ some b) (hmem : piece ∈ splitGo [a, b] 0 cur s) : PairFree a b piece := by
  induction hlen : s.length using Nat.strongRecOn generalizing s cur with
  | ind n ih =>
    cases s with
    | nil =>
      rw [splitGo, mem_singleton] at hmem
      rwa [hmem]
    | cons x s =>
      rw [splitGo] at hmem
      split at hmem
      · next hpre =>
        obtain ⟨-, hsecond⟩ := cons_prefix_cons.mp <| isPrefixOf_iff_prefix.mp hpre
        cases s with
        | nil => exact absurd (List.prefix_nil.mp hsecond) (cons_ne_nil _ _)
        | cons y s =>
          obtain hmem | hmem := List.mem_cons.mp hmem
          · rwa [hmem]
          · exact ih s.length (by simp only [length_cons] at hlen; omega) pairFree_nil (by simp) hmem rfl
      · next hpre =>
        refine ih s.length (by simp only [length_cons] at hlen; omega) ?_ ?_ hmem rfl
        · intro hin
          rw [reverse_cons, infix_concat_iff] at hin
          obtain hsuf | hin := hin
          · rw [← reverse_cons, ← reverse_prefix, reverse_reverse] at hsuf
            have hlast : [b, a] <+: x :: cur := hsuf
            obtain ⟨hb, hlast⟩ := cons_prefix_cons.mp hlast
            cases cur with
            | nil => exact absurd (List.prefix_nil.mp hlast) (cons_ne_nil _ _)
            | cons c cur =>
              obtain ⟨ha, -⟩ := cons_prefix_cons.mp hlast
              exact hjoin (congrArg some ha.symm) (congrArg some hb.symm)
          · exact hcur hin
        · intro hx hs
          cases s with
          | nil => cases hs
          | cons y s =>
            have hxa : x = a := Option.some.inj hx
            have hyb : y = b := Option.some.inj hs
            rw [hxa, hyb] at hpre
            exact hpre <| isPrefixOf_iff_prefix.mpr ⟨s, rfl⟩

theorem pairFree_of_mem_splitSub (hmem : piece ∈ splitSub [a, b] s) : PairFree a b piece :=
  pairFree_of_mem_splitGo pairFree_nil (by simp) hmem

/-! ## one element -/

theorem findSub_char (h : c ∉ x) (rest : List α) : findSub [c] (x ++ c :: rest) = some x.length := by
  induction x with
  | nil => simp [findSub]
  | cons y x ih =>
    obtain ⟨hy, hx⟩ := not_or.mp (List.mem_cons.not.mp h)
    simp [findSub, hy, ih hx]

theorem splitOnce_char (h : c ∉ x) (rest : List α) : splitOnce [c] (x ++ c :: rest) = some (x, rest) := by
  simp [splitOnce, findSub_char h]

/-! ## a word -/

theorem findSub_eq_none_iff (hpat : pat ≠ []) : findSub pat s = none ↔ ¬ pat <:+: s := by
  induction s with
  | nil => simp [findSub, hpat]
  | cons x s ih =>
    rw [findSub, infix_cons_iff, not_or, ← ih]
    split
    · next hpre => simp [ isPrefixOf_iff_prefix.mp hpre]
    · next hpre => simp [mt isPrefixOf_iff_prefix.mpr hpre]

/-- A word whose first letter does not come again is found behind whatever does not hold it. -/
theorem findSub_word (hc : c ∉ pat) (h : ¬ (c :: pat) <:+: x) (rest : List α) :
    findSub (c :: pat) (x ++ (c :: (pat ++ rest))) = some x.length := by
  induction x with
  | nil => simp [findSub]
  | cons d x ih =>
    rw [infix_cons_iff, not_or] at h
    have hnot : ¬ (c :: pat) <+: d :: (x ++ c :: (pat ++ rest)) := by
      intro hpre
      obtain ⟨hd, hpre⟩ := cons_prefix_cons.mp hpre
      -- the word is too short to reach the next one
      have hshort : pat.length ≤ x.length := by
        by_contra hlt
        have hget := hpre.getElem (i := x.length) (by omega)
        rw [getElem_append_right (Nat.le_refl _)] at hget
        simp only [Nat.sub_self, getElem_cons_zero] at hget
        exact hc (hget ▸ getElem_mem _)
      exact h.1 (cons_prefix_cons.mpr ⟨hd, prefix_of_prefix_length_le hpre (prefix_append _ _) hshort⟩)
    rw [cons_append, findSub, isPrefixOf_of_not_prefix hnot, if_neg Bool.false_ne_true, ih h.2]
    rfl

/-! ## the end of a block -/

omit [DecidableEq α] in
theorem flatten_ended (sep : List α) (hne : lines ≠ []) :
    (lines.map (· ++ sep)).flatten = sep.intercalate lines ++ sep := by
  induction lines with
  | nil => contradiction
  | cons line lines ih =>
    cases lines with
    | nil => simp
    | cons next lines =>
      rw [map_cons, flatten_cons, ih (cons_ne_nil _ _), intercalate_cons_cons]
      simp only [append_assoc]

theorem findSub_line (hab : a ≠ b) (h : PairFree a b line) (pat rest : List α) :
    findSub (a :: b :: pat) (line ++ a :: rest) = (findSub (a :: b :: pat) (a :: rest)).map (· + line.length) := by
  induction line with
  | nil => simp
  | cons x line ih =>
    have hnot : ¬ (a :: b :: pat) <+: x :: (line ++ a :: rest) := fun hpre =>
      h.not_prefix hab rest ((prefix_append [a, b] pat).trans hpre)
    rw [cons_append, findSub, isPrefixOf_of_not_prefix hnot, if_neg Bool.false_ne_true, ih h.tail, Option.map_map]
    congr 1

/-- After a line the block goes on: no empty line starts at its separator. -/
theorem findSub_separator (hab : a ≠ b) (hne : line ≠ []) (h : PairFree a b line) (rest : List α) :
    findSub [a, b, a, b] (a :: b :: (line ++ a :: rest)) = (findSub [a, b, a, b] (line ++ a :: rest)).map (· + 2) := by
  have hba : ¬ [a, b, a, b] <+: b :: (line ++ a :: rest) := fun hpre =>
    hab (cons_prefix_cons.mp hpre).1
  have hab' : ¬ [a, b, a, b] <+: a :: b :: (line ++ a :: rest) := by
    intro hpre
    have hpre' := (cons_prefix_cons.mp (cons_prefix_cons.mp hpre).2).2
    cases line with
    | nil => contradiction
    | cons x line => exact h.not_prefix hab rest hpre'
  rw [findSub, isPrefixOf_of_not_prefix hab', if_neg Bool.false_ne_true, findSub, isPrefixOf_of_not_prefix hba,
    if_neg Bool.false_ne_true, Option.map_map]
  rfl

theorem findSub_block (hab : a ≠ b) (hne : lines ≠ [])
    (h : ∀ line ∈ lines, line ≠ [] ∧ PairFree a b line) (body : List α) :
    findSub [a, b, a, b] ([a, b].intercalate lines ++ a :: b :: a :: b :: body) =
      some ([a, b].intercalate lines).length := by
  induction lines with
  | nil => contradiction
  | cons line lines ih =>
    obtain ⟨-, hline⟩ := h line mem_cons_self
    cases lines with
    | nil =>
      rw [intercalate_singleton, findSub_line hab hline]
      simp [findSub]
    | cons next lines =>
      obtain ⟨hnext, hnext'⟩ := h next (by simp)
      have hrest := ih (cons_ne_nil _ _) fun l hl => h l (mem_cons_of_mem _ hl)
      have hshape : ∃ rest, [a, b].intercalate (next :: lines) ++ a :: b :: a :: b :: body = next ++ a :: rest := by
        cases lines with
        | nil => exact ⟨_, by rw [intercalate_singleton]⟩
        | cons l lines => exact ⟨_, by rw [intercalate_cons_cons, append_assoc, append_assoc]; rfl⟩
      obtain ⟨rest, hshape⟩ := hshape
      have hsplit : [a, b].intercalate (line :: next :: lines) ++ a :: b :: a :: b :: body =
          line ++ a :: (b :: (next ++ a :: rest)) := by
        rw [← hshape, intercalate_cons_cons]
        simp
      rw [hsplit, findSub_line hab hline, findSub_separator hab hnext hnext', ← hshape, hrest,
        intercalate_cons_cons]
      simp
      omega

theorem splitOnce_block (hab : a ≠ b) (hne : lines ≠ [])
    (h : ∀ line ∈ lines, line ≠ [] ∧ PairFree a b line) (body : List α) :
    splitOnce [a, b, a, b] ((lines.map (· ++ [a, b])).flatten ++ a :: b :: body) =
      some ([a, b].intercalate lines, body) := by
  have hblock : (lines.map (· ++ [a, b])).flatten ++ a :: b :: body =
      [a, b].intercalate lines ++ a :: b :: a :: b :: body := by
    rw [flatten_ended [a, b] hne]
    simp
  rw [splitOnce, hblock, findSub_block hab hne h]
  simp

end SmithsNet.Lib
