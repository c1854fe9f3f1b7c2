import SmithsNet.Lib.Lines

/-!
# SmithsNet.Lib.Infix

What is cut out of a text stands in it: the pieces of a split, what is left of a trimmed
text.

* `splitBy_pieces` — the first piece stands in front, every other one behind a separator;
* `splitBy_append_cons` — a separator separates.
-/

namespace SmithsNet.Lib

section Split

variable {α : Type}

theorem splitBy_cons_of_plain {p : α → Bool} {d : α} (hd : p d = false) {s first : List α} {rest : List (List α)}
    (h : splitBy p s = first :: rest) : splitBy p (d :: s) = (d :: first) :: rest := by
  unfold splitBy at h ⊢
  rw [splitByGo, hd, if_neg Bool.false_ne_true, splitByGo_eq, h]
  rfl

/-- The first piece stands in front, every other one behind a separator. -/
theorem splitBy_pieces (p : α → Bool) (s : List α) : ∃ first rest, splitBy p s = first :: rest ∧
    first <+: s ∧ ∀ x ∈ rest, ∃ c, p c = true ∧ c :: x <:+: s := by
  induction s with
  | nil => exact ⟨[], [], rfl, List.prefix_refl _, nofun⟩
  | cons d s ih =>
    obtain ⟨first, rest, hsplit, hfirst, hrest⟩ := ih
    have hlater : ∀ x ∈ rest, ∃ c, p c = true ∧ c :: x <:+: d :: s := by
      intro x hx
      obtain ⟨c, hc, hin⟩ := hrest x hx
      exact ⟨c, hc, List.infix_cons hin⟩
    cases hd : p d with
    | true =>
      have hsep : splitBy p (d :: s) = [] :: first :: rest := by
        rw [← hsplit]
        exact splitBy_append (x := []) nofun hd s
      refine ⟨[], first :: rest, hsep, List.nil_prefix, ?_⟩
      intro x hx
      obtain rfl | hx := List.mem_cons.mp hx
      · exact ⟨d, hd, (List.cons_prefix_cons.mpr ⟨rfl, hfirst⟩).isInfix⟩
      · exact hlater x hx
    | false =>
      exact ⟨d :: first, rest, splitBy_cons_of_plain hd hsplit, List.cons_prefix_cons.mpr ⟨rfl, hfirst⟩, hlater⟩

theorem prefix_head_splitBy {p : α → Bool} {s first : List α} (h : (splitBy p s).head? = some first) :
    first <+: s := by
  obtain ⟨first', rest, hsplit, hfirst, -⟩ := splitBy_pieces p s
  rw [hsplit] at h
  exact Option.some.inj h ▸ hfirst

theorem infix_of_mem_splitBy {p : α → Bool} {s x : List α} (h : x ∈ splitBy p s) : x <:+: s := by
  obtain ⟨first, rest, hsplit, hfirst, hrest⟩ := splitBy_pieces p s
  rw [hsplit] at h
  obtain rfl | h := List.mem_cons.mp h
  · exact hfirst.isInfix
  · obtain ⟨c, -, hin⟩ := hrest x h
    exact (List.suffix_cons c x).isInfix.trans hin

theorem splitBy_append_cons {p : α → Bool} {c : α} (hc : p c = true) (s rest : List α) :
    splitBy p (s ++ c :: rest) = splitBy p s ++ splitBy p rest := by
  have hgo : ∀ cur : List α, splitByGo p cur (s ++ c :: rest) = splitByGo p cur s ++ splitByGo p [] rest := by
    induction s with
    | nil =>
      intro cur
      show splitByGo p cur (c :: rest) = cur.reverse :: splitByGo p [] rest
      rw [splitByGo, if_pos hc]
    | cons d s ih =>
      intro cur
      rw [List.cons_append, splitByGo, splitByGo, ih, ih]
      split <;> rfl
  exact hgo []

end Split

theorem infix_splitOnce {α : Type} [DecidableEq α] {pat s x y : List α}
    (h : splitOnce pat s = some (x, y)) : x <:+: s ∧ y <:+: s := by
  obtain ⟨i, -, hi⟩ := Option.map_eq_some_iff.mp h
  obtain ⟨rfl, rfl⟩ := Prod.mk.injEq .. ▸ hi
  exact ⟨(List.take_prefix _ _).isInfix, (List.drop_suffix _ _).isInfix⟩

theorem infix_trim (s : Text) : trim s <:+: s := by
  have hend : trim s <+: s.dropWhile isWhitespace := by
    rw [trim, ← List.reverse_suffix, List.reverse_reverse]
    exact List.dropWhile_suffix _
  exact hend.isInfix.trans (List.dropWhile_suffix _).isInfix

theorem splitWhitespace_append_space (s rest : Text) :
    splitWhitespace (s ++ ' ' :: rest) = splitWhitespace s ++ splitWhitespace rest := by
  rw [splitWhitespace, splitBy_append_cons (by decide), List.filter_append]
  rfl

theorem splitWhitespace_ne_nil {s : Text} {c : Char} (hmem : c ∈ s) (hc : isWhitespace c = false) :
    splitWhitespace s ≠ [] := by
  induction s with
  | nil => contradiction
  | cons d s ih =>
    cases hd : isWhitespace d with
    | true =>
      obtain rfl | hmem := List.mem_cons.mp hmem
      · exact absurd hd (by rw [hc]; exact Bool.false_ne_true)
      · rw [splitWhitespace_cons hd]
        exact ih hmem
    | false =>
      obtain ⟨first, rest, hsplit, -⟩ := splitBy_pieces isWhitespace s
      rw [splitWhitespace, splitBy_cons_of_plain hd hsplit]
      exact List.cons_ne_nil _ _

end SmithsNet.Lib
