import Mathlib

/-!
# SmithsNet.Lib.Stable

Lists in which the order of some entries matters and that of others does not.

A stable sort leaves the entries of one key in their order, and a sorted list is known from the
entries of each key.  `lasts` are the entries of a list that no later one of their name
replaces; `filterMap_lasts_flatMap` says when the order inside the blocks of a list is lost in them.
-/

namespace SmithsNet.Lib

open List

section Stable

variable {α κ : Type} [LinearOrder κ] (key : α → κ)

/-- Sorted by a key, with `insertionSort`. -/
def sortByKey (l : List α) : List α := l.insertionSort fun a b => key a ≤ key b

theorem filter_orderedInsert_key (a : α) (l : List α) (k : κ) :
    (l.orderedInsert (fun a b => key a ≤ key b) a).filter (key · = k) = (a :: l).filter (key · = k) := by
  induction l with
  | nil => rfl
  | cons b l ih =>
    by_cases hle : key a ≤ key b
    · rw [orderedInsert_cons, if_pos hle]
    · -- `a` is past an entry of another key
      rw [orderedInsert_cons, if_neg hle]
      have hne : ¬ (key a = k ∧ key b = k) := fun h => hle (le_of_eq (h.1.trans h.2.symm))
      simp only [filter_cons, ih]
      grind

theorem filter_sortByKey (l : List α) (k : κ) : (sortByKey key l).filter (key · = k) = l.filter (key · = k) := by
  induction l with
  | nil => rfl
  | cons a l ih =>
    show ((sortByKey key l).orderedInsert _ a).filter _ = _
    rw [filter_orderedInsert_key, filter_cons, filter_cons, ih]

variable {key}

theorem mem_iff_of_filter_key {l l' : List α}
    (h : ∀ k, l.filter (key · = k) = l'.filter (key · = k)) (a : α) : a ∈ l ↔ a ∈ l' := by
  have hiff : a ∈ l.filter (key · = key a) ↔ a ∈ l'.filter (key · = key a) := by rw [h]
  simpa using hiff

theorem eq_of_filter_key {l l' : List α} (hl : l.Pairwise fun a b => key a ≤ key b)
    (hl' : l'.Pairwise fun a b => key a ≤ key b) (h : ∀ k, l.filter (key · = k) = l'.filter (key · = k)) : l = l' := by
  induction l generalizing l' with
  | nil => exact (List.eq_nil_iff_forall_not_mem.mpr fun a ha => not_mem_nil ((mem_iff_of_filter_key h a).mpr ha)).symm
  | cons a l ih =>
    cases l' with
    | nil => exact absurd ((mem_iff_of_filter_key h a).mp mem_cons_self) not_mem_nil
    | cons b l' =>
      obtain ⟨ha, hl⟩ := pairwise_cons.mp hl
      obtain ⟨hb, hsorted⟩ := pairwise_cons.mp hl'
      have hab : key a = key b := by
        refine le_antisymm ?_ ?_
        · obtain rfl | hin := mem_cons.mp ((mem_iff_of_filter_key h b).mpr mem_cons_self)
          · exact le_refl _
          · exact ha b hin
        · obtain rfl | hin := mem_cons.mp ((mem_iff_of_filter_key h a).mp mem_cons_self)
          · exact le_refl _
          · exact hb a hin
      have hfirst := h (key a)
      rw [filter_cons_of_pos (by simp), filter_cons_of_pos (by simp [hab]), List.cons.injEq] at hfirst
      obtain ⟨rfl, -⟩ := hfirst
      refine congrArg (List.cons a) (ih hl hsorted fun k => ?_)
      have hk := h k
      rw [filter_cons, filter_cons] at hk
      split at hk
      · exact (List.cons.inj hk).2
      · exact hk

end Stable

section Lasts

variable {α ν : Type} [DecidableEq ν] (name : α → ν)

/-- The entries of a list that no later one of their name replaces. -/
def lasts (l : List α) : List α := l.foldl (fun kept a => kept.filter (name · ≠ name a) ++ [a]) []

@[simp] theorem lasts_nil : lasts name [] = [] := rfl

theorem lasts_concat (l : List α) (a : α) : lasts name (l ++ [a]) = (lasts name l).filter (name · ≠ name a) ++ [a] := by
  simp only [lasts, foldl_append, foldl_cons, foldl_nil]

theorem lasts_append (l l' : List α) :
    lasts name (l ++ l') = (lasts name l).filter (name · ∉ l'.map name) ++ lasts name l' := by
  induction l' using reverseRecOn with
  | nil => simp
  | append_singleton l' a ih =>
    rw [← append_assoc, lasts_concat, ih, lasts_concat, filter_append, filter_filter, append_assoc]
    refine congrArg (· ++ _) (filter_congr fun b _ => ?_)
    rw [map_append, map_singleton, ← Bool.decide_and]
    simp only [mem_append, mem_singleton, not_or, ne_eq, and_comm]

variable {name}

theorem nodup_names_lasts (l : List α) : ((lasts name l).map name).Nodup := by
  induction l using reverseRecOn with
  | nil => exact .nil
  | append_singleton l a ih =>
    rw [lasts_concat, map_append, nodup_append]
    refine ⟨ih.sublist (List.filter_sublist.map name), nodup_singleton _, ?_⟩
    intro n hn m hm
    obtain ⟨b, hb, rfl⟩ := List.mem_map.mp hn
    obtain rfl := mem_singleton.mp hm
    simpa using (mem_filter.mp hb).2

theorem lasts_eq_self {l : List α} (h : (l.map name).Nodup) : lasts name l = l := by
  induction l using reverseRecOn with
  | nil => rfl
  | append_singleton l a ih =>
    rw [map_append, nodup_append] at h
    rw [lasts_concat, ih h.1, List.filter_eq_self.mpr]
    intro b hb
    simpa using h.2.2 (name b) (mem_map_of_mem hb) (name a) mem_cons_self

theorem filter_lasts (p : ν → Bool) (l : List α) : (lasts name l).filter (p ∘ name) = lasts name (l.filter (p ∘ name)) := by
  induction l using reverseRecOn with
  | nil => rfl
  | append_singleton l a ih =>
    rw [lasts_concat, filter_append, filter_filter, filter_append]
    cases hp : p (name a) with
    | true =>
      rw [filter_singleton, Function.comp_apply, hp, cond_true, lasts_concat, ← ih, filter_filter]
      simp [Bool.and_comm]
    | false =>
      rw [filter_singleton, Function.comp_apply, hp, cond_false, append_nil, append_nil, ← ih]
      refine filter_congr fun b _ => ?_
      by_cases hb : name b = name a
      · simp [hb, hp]
      · simp [hb]

variable {δ β : Type}

/-- The entries of each block that no later block replaces are not in each other's way. -/
def Clear (name : α → ν) (block : δ → List α) (R : α → α → Prop) (ds : List δ) : Prop :=
  ∀ before d after, ds = before ++ d :: after → ∀ a ∈ block d, ∀ b ∈ block d, a ≠ b →
    name a ∉ (after.flatMap block).map name → name b ∉ (after.flatMap block).map name → R a b

theorem filterMap_short {f : α → Option β} {l : List α} (h : l.Pairwise fun a b => f a = none ∨ f b = none) :
    l.filterMap f = [] ∨ ∃ b, l.filterMap f = [b] := by
  induction l with
  | nil => exact .inl rfl
  | cons a l ih =>
    obtain ⟨ha, hl⟩ := pairwise_cons.mp h
    cases hf : f a with
    | none =>
      rw [filterMap_cons_none hf]
      exact ih hl
    | some b =>
      refine .inr ⟨b, ?_⟩
      rw [filterMap_cons_some hf, List.filterMap_eq_nil_iff.mpr]
      intro c hc
      obtain hnone | hnone := ha c hc
      · rw [hf] at hnone
        contradiction
      · exact hnone

theorem filterMap_lasts_flatMap {block block' : δ → List α} {R : α → α → Prop} {f : α → Option β} {ds : List δ}
    (hclear : Clear name block R ds) (hR : ∀ a b, R a b → name a ≠ name b ∧ (f a = none ∨ f b = none))
    (hperm : ∀ d, (block d).Perm (block' d)) (hnodup : ∀ d, (block d).Nodup) :
    (lasts name (ds.flatMap block)).filterMap f = (lasts name (ds.flatMap block')).filterMap f := by
  induction ds with
  | nil => rfl
  | cons d ds ih =>
    have hrest := ih fun before e after heq => hclear (d :: before) e after (congrArg (d :: ·) heq)
    have hnames : ∀ n, n ∈ (ds.flatMap block).map name ↔ n ∈ (ds.flatMap block').map name := fun n =>
      ((List.Perm.flatMap_left ds fun e _ => hperm e).map name).mem_iff
    obtain ⟨p, hp⟩ : ∃ p : ν → Bool, p = fun n => decide (n ∉ (ds.flatMap block).map name) := ⟨_, rfl⟩
    have hp' : p = fun n => decide (n ∉ (ds.flatMap block').map name) := by
      rw [hp]
      exact funext fun n => decide_eq_decide.mpr (not_congr (hnames n))
    -- what is left of the first block
    have hfree : ∀ a ∈ (block d).filter (p ∘ name), ∀ b ∈ (block d).filter (p ∘ name), a ≠ b → R a b := by
      intro a ha b hb hne
      obtain ⟨ha, hpa⟩ := mem_filter.mp ha
      obtain ⟨hb, hpb⟩ := mem_filter.mp hb
      rw [Function.comp_apply, hp] at hpa hpb
      exact hclear [] d ds rfl a ha b hb hne (of_decide_eq_true hpa) (of_decide_eq_true hpb)
    have hsame : ((block d).filter (p ∘ name)).Perm ((block' d).filter (p ∘ name)) := (hperm d).filter _
    have hone : (((block d).filter (p ∘ name)).map name).Nodup :=
      List.Nodup.map_on (fun a ha b hb heq => by
        by_contra hne
        exact (hR a b (hfree a ha b hb hne)).1 heq) ((hnodup d).filter _)
    have hfirst : ((block d).filter (p ∘ name)).filterMap f = ((block' d).filter (p ∘ name)).filterMap f := by
      have hpairs : ((block d).filter (p ∘ name)).Pairwise fun a b => f a = none ∨ f b = none :=
        ((hnodup d).filter _).imp_of_mem fun ha hb hne => (hR _ _ (hfree _ ha _ hb hne)).2
      have hshort := hsame.filterMap f
      obtain hnil | ⟨b, hb⟩ := filterMap_short hpairs
      · rw [hnil] at hshort ⊢
        exact (List.nil_perm.mp hshort).symm
      · rw [hb] at hshort ⊢
        exact List.singleton_perm.mp hshort
    simp only [flatMap_cons, lasts_append, filterMap_append, hrest]
    refine congrArg (· ++ _) ?_
    show ((lasts name (block d)).filter ((fun n => decide (n ∉ (ds.flatMap block).map name)) ∘ name)).filterMap f =
      ((lasts name (block' d)).filter ((fun n => decide (n ∉ (ds.flatMap block').map name)) ∘ name)).filterMap f
    rw [← hp, ← hp', filter_lasts, filter_lasts, lasts_eq_self hone,
      lasts_eq_self ((hsame.map name).nodup_iff.mp hone), hfirst]

theorem mem_lasts {l : List α} {a : α} (ha : a ∈ l) (honly : ∀ b ∈ l, name b = name a → b = a) : a ∈ lasts name l := by
  induction l using reverseRecOn with
  | nil => contradiction
  | append_singleton l b ih =>
    rw [lasts_concat, mem_append, mem_filter, mem_singleton]
    by_cases hname : name b = name a
    · exact .inr (honly b (mem_append_right _ mem_cons_self) hname).symm
    · refine .inl ⟨ih ?_ fun c hc => honly c (mem_append_left _ hc), by simpa using Ne.symm hname⟩
      obtain hin | hlast := mem_append.mp ha
      · exact hin
      · exact absurd (congrArg name (mem_singleton.mp hlast)).symm hname

/-- Of two entries that stay, the one at the end of the block is behind the other. -/
theorem pair_sublist_lasts {before after block : List α} {a b : α} (hb : b ∈ block)
    (honly : ∀ c ∈ block, name c = name b → c = b) (hne : name b ≠ name a) (ha : name a ∉ after.map name)
    (hb' : name b ∉ after.map name) : [b, a].Sublist (lasts name (before ++ ((block ++ [a]) ++ after))) := by
  have hpair : [b, a].Sublist (lasts name (block ++ [a])) := by
    rw [lasts_concat]
    have hfirst : [b].Sublist ((lasts name block).filter (name · ≠ name a)) :=
      List.singleton_sublist.mpr (mem_filter.mpr ⟨mem_lasts hb honly, ?_⟩)
    · exact hfirst.append (.refl [a])
    simpa using hne
  have hkept : [b, a].filter (name · ∉ after.map name) = [b, a] := by
    refine List.filter_eq_self.mpr fun c hc => ?_
    obtain rfl | hc := mem_cons.mp hc
    · exact decide_eq_true hb'
    · rw [mem_singleton.mp hc]
      exact decide_eq_true ha
  rw [lasts_append, lasts_append name (block ++ [a])]
  refine List.Sublist.trans ?_ (sublist_append_right _ _)
  refine List.Sublist.trans ?_ (sublist_append_left _ _)
  rw [← hkept]
  exact hpair.filter _

end Lasts

end SmithsNet.Lib
