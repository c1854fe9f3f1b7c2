import Mathlib

/-!
# SmithsNet.Lib.Sorted

Tables kept in the order of a key, at most one row for each: an ordered map, or
a database table with a primary key.  The rows are a list in strictly
increasing order of the key, so two rows with the same key cannot be written.
What the operations do is said by membership (`mem_put`, `mem_keep`) and by the
number of rows (`len_put`, `len_popFirst`, `len_remove`).
-/

namespace SmithsNet.Lib

open List

variable {ρ κ : Type} [LinearOrder κ]

/-- Rows in strictly increasing order of their key. -/
structure Sorted (key : ρ → κ) where
  rows : List ρ
  sorted : rows.Pairwise fun a b => key a < key b

/-- Put a row in its place, in place of the row with its key. -/
def putRow (key : ρ → κ) (r : ρ) : List ρ → List ρ
  | [] => [r]
  | q :: qs =>
    if key r < key q then r :: q :: qs
    else if key r = key q then r :: qs
    else q :: putRow key r qs

section putRow

variable {key : ρ → κ} {r : ρ} {rows : List ρ}

theorem mem_putRow (h : rows.Pairwise fun a b => key a < key b) {q : ρ} :
    q ∈ putRow key r rows ↔ q = r ∨ q ∈ rows ∧ key q ≠ key r := by
  induction rows with
  | nil => simp [putRow]
  | cons p ps ih =>
    obtain ⟨hp, hps⟩ := pairwise_cons.mp h
    unfold putRow
    by_cases hlt : key r < key p
    · rw [if_pos hlt, mem_cons, mem_cons]
      have hne : q = p ∨ q ∈ ps → key q ≠ key r := by
        rintro (rfl | hq)
        · exact hlt.ne'
        · exact (hlt.trans (hp q hq)).ne'
      exact or_congr_right (iff_self_and.mpr hne)
    · rw [if_neg hlt]
      by_cases heq : key r = key p
      · rw [if_pos heq, mem_cons, mem_cons]
        refine or_congr_right ⟨fun hq => ⟨Or.inr hq, ?_⟩, ?_⟩
        · rw [heq]
          exact (hp q hq).ne'
        · rintro ⟨rfl | hq, hne⟩
          · exact absurd heq.symm hne
          · exact hq
      · rw [if_neg heq, mem_cons, mem_cons, ih hps]
        constructor
        · rintro (rfl | rfl | ⟨hq, hne⟩)
          · exact Or.inr ⟨Or.inl rfl, Ne.symm heq⟩
          · exact Or.inl rfl
          · exact Or.inr ⟨Or.inr hq, hne⟩
        · rintro (rfl | ⟨rfl | hq, hne⟩)
          · exact Or.inr (Or.inl rfl)
          · exact Or.inl rfl
          · exact Or.inr (Or.inr ⟨hq, hne⟩)

theorem sorted_putRow (h : rows.Pairwise fun a b => key a < key b) :
    (putRow key r rows).Pairwise fun a b => key a < key b := by
  induction rows with
  | nil => simp [putRow]
  | cons p ps ih =>
    obtain ⟨hp, hps⟩ := pairwise_cons.mp h
    unfold putRow
    by_cases hlt : key r < key p
    · rw [if_pos hlt]
      refine pairwise_cons.mpr ⟨?_, h⟩
      intro q hq
      obtain rfl | hq := mem_cons.mp hq
      · exact hlt
      · exact hlt.trans (hp q hq)
    · rw [if_neg hlt]
      by_cases heq : key r = key p
      · rw [if_pos heq]
        refine pairwise_cons.mpr ⟨?_, hps⟩
        rw [heq]
        exact hp
      · rw [if_neg heq]
        refine pairwise_cons.mpr ⟨?_, ih hps⟩
        intro q hq
        obtain rfl | ⟨hq, _⟩ := (mem_putRow hps).mp hq
        · exact lt_of_le_of_ne (not_lt.mp hlt) (Ne.symm heq)
        · exact hp q hq

theorem length_putRow (h : ∀ q ∈ rows, key q ≠ key r) :
    (putRow key r rows).length = rows.length + 1 := by
  induction rows with
  | nil => rfl
  | cons p ps ih =>
    obtain ⟨hp, hps⟩ := List.forall_mem_cons.mp h
    unfold putRow
    by_cases hlt : key r < key p
    · rw [if_pos hlt, length_cons]
    · rw [if_neg hlt, if_neg (Ne.symm hp), length_cons, ih hps, length_cons]

end putRow

namespace Sorted

variable {key : ρ → κ}

/-- No rows. -/
def empty : Sorted key := ⟨[], List.Pairwise.nil⟩

/-- Number of rows. -/
def len (t : Sorted key) : Nat := t.rows.length

/-- The row with a key. -/
def get (t : Sorted key) (k : κ) : Option ρ := t.rows.find? fun r => decide (key r = k)

/-- Insert a row, in place of the row with its key. -/
def put (t : Sorted key) (r : ρ) : Sorted key := ⟨putRow key r t.rows, sorted_putRow t.sorted⟩

/-- Keep the rows `p` accepts. -/
def keep (t : Sorted key) (p : ρ → Bool) : Sorted key :=
  ⟨t.rows.filter p, t.sorted.sublist filter_sublist⟩

/-- Remove the row with a key. -/
def remove (t : Sorted key) (k : κ) : Sorted key := t.keep fun r => decide (key r ≠ k)

/-- Remove the row with the least key. -/
def popFirst (t : Sorted key) : Sorted key := ⟨t.rows.tail, t.sorted.sublist (tail_sublist _)⟩

/-- Change rows where they are. -/
def rewrite (t : Sorted key) (rows : List ρ) (h : rows.map key = t.rows.map key) : Sorted key where
  rows := rows
  sorted := by
    have hkeys := List.pairwise_map.mpr t.sorted
    rw [← h] at hkeys
    exact List.pairwise_map.mp hkeys

/-- The row with the least key. -/
def first (t : Sorted key) : Option ρ := t.rows.head?

/-- The row with the greatest key. -/
def last (t : Sorted key) : Option ρ := t.rows.getLast?

variable {t : Sorted key} {r q : ρ} {k : κ}

theorem mem_put : q ∈ (t.put r).rows ↔ q = r ∨ q ∈ t.rows ∧ key q ≠ key r := mem_putRow t.sorted

theorem mem_keep {p : ρ → Bool} : q ∈ (t.keep p).rows ↔ q ∈ t.rows ∧ p q = true := mem_filter

theorem mem_keys_put : k ∈ (t.put r).rows.map key ↔ k = key r ∨ k ∈ t.rows.map key := by
  simp only [mem_map, mem_put]
  constructor
  · rintro ⟨q, rfl | ⟨hq, -⟩, rfl⟩
    · exact .inl rfl
    · exact .inr ⟨q, hq, rfl⟩
  · rintro (rfl | ⟨q, hq, rfl⟩)
    · exact ⟨r, .inl rfl, rfl⟩
    · by_cases hkey : key q = key r
      · exact ⟨r, .inl rfl, hkey.symm⟩
      · exact ⟨q, .inr ⟨hq, hkey⟩, rfl⟩

theorem mem_keys_remove {k' : κ} : k' ∈ (t.remove k).rows.map key ↔ k' ∈ t.rows.map key ∧ k' ≠ k := by
  simp only [mem_map, remove, mem_keep, decide_eq_true_eq]
  constructor
  · rintro ⟨q, ⟨hq, hne⟩, rfl⟩
    exact ⟨⟨q, hq, rfl⟩, hne⟩
  · rintro ⟨⟨q, hq, rfl⟩, hne⟩
    exact ⟨q, ⟨hq, hne⟩, rfl⟩

theorem mem_of_mem_popFirst (h : q ∈ t.popFirst.rows) : q ∈ t.rows := mem_of_mem_tail h

theorem get_eq_some (h : t.get k = some r) : r ∈ t.rows ∧ key r = k := by
  have hkey := find?_some h
  exact ⟨mem_of_find?_eq_some h, of_decide_eq_true hkey⟩

theorem get_eq_none (h : t.get k = none) : ∀ q ∈ t.rows, key q ≠ k := by
  intro q hq
  simpa using List.find?_eq_none.mp h q hq

theorem eq_of_key_eq (hr : r ∈ t.rows) (hq : q ∈ t.rows) (h : key r = key q) : r = q := by
  have hsorted := t.sorted
  generalize t.rows = rows at hr hq hsorted
  induction rows with
  | nil => contradiction
  | cons p ps ih =>
    obtain ⟨hp, hps⟩ := pairwise_cons.mp hsorted
    obtain rfl | hr' := mem_cons.mp hr
    · obtain rfl | hq' := mem_cons.mp hq
      · rfl
      · exact absurd h (hp q hq').ne
    · obtain rfl | hq' := mem_cons.mp hq
      · exact absurd h (hp r hr').ne'
      · exact ih hr' hq' hps

theorem get_of_mem (h : r ∈ t.rows) : t.get (key r) = some r := by
  cases hget : t.get (key r) with
  | none => exact absurd rfl (get_eq_none hget r h)
  | some q =>
    obtain ⟨hq, hkey⟩ := get_eq_some hget
    rw [eq_of_key_eq hq h hkey]

theorem first_le (h : t.first = some r) : r ∈ t.rows ∧ ∀ q ∈ t.rows, key r ≤ key q := by
  have hsorted := t.sorted
  unfold first at h
  cases hrows : t.rows with
  | nil =>
    rw [hrows] at h
    contradiction
  | cons p ps =>
    rw [hrows, head?_cons, Option.some.injEq] at h
    rw [hrows] at hsorted
    subst h
    refine ⟨mem_cons_self, ?_⟩
    intro q hq
    obtain rfl | hq := mem_cons.mp hq
    · exact le_rfl
    · exact ((pairwise_cons.mp hsorted).1 q hq).le

theorem mem_popFirst_or_lt (h : q ∈ t.rows) :
    q ∈ t.popFirst.rows ∨ ∀ p ∈ t.popFirst.rows, key q < key p := by
  have hsorted := t.sorted
  show q ∈ t.rows.tail ∨ ∀ p ∈ t.rows.tail, key q < key p
  cases hrows : t.rows with
  | nil =>
    rw [hrows] at h
    contradiction
  | cons first rest =>
    rw [hrows] at h hsorted
    obtain rfl | hq := mem_cons.mp h
    · exact .inr (pairwise_cons.mp hsorted).1
    · exact .inl hq

theorem le_last (h : t.last = some r) : r ∈ t.rows ∧ ∀ q ∈ t.rows, key q ≤ key r := by
  obtain ⟨ps, hps⟩ := List.getLast?_eq_some_iff.mp h
  have hsorted := t.sorted
  rw [hps] at hsorted ⊢
  refine ⟨by simp, ?_⟩
  intro q hq
  obtain hq | hq := List.mem_append.mp hq
  · exact ((List.pairwise_append.mp hsorted).2.2 q hq r (by simp)).le
  · rw [List.mem_singleton.mp hq]

theorem len_put (h : t.get (key r) = none) : (t.put r).len = t.len + 1 :=
  length_putRow (get_eq_none h)

theorem len_popFirst (h : t.first = some r) : t.popFirst.len + 1 = t.len := by
  have hne : t.rows ≠ [] := by
    intro hnil
    rw [first, hnil] at h
    contradiction
  have hpos := List.length_pos_iff.mpr hne
  show t.rows.tail.length + 1 = t.rows.length
  rw [length_tail]
  omega

theorem len_remove (h : t.get k = some r) : (t.remove k).len + 1 = t.len := by
  obtain ⟨hr, hk⟩ := get_eq_some h
  have hsorted := t.sorted
  unfold len remove keep
  simp only
  generalize t.rows = rows at hr hsorted
  induction rows with
  | nil => contradiction
  | cons p ps ih =>
    obtain ⟨hp, hps⟩ := pairwise_cons.mp hsorted
    by_cases hpk : key p = k
    · -- the row itself: no later row has its key
      have hall : ps.filter (fun q => decide (key q ≠ k)) = ps := by
        refine List.filter_eq_self.mpr fun q hq => decide_eq_true ?_
        rw [← hpk]
        exact (hp q hq).ne'
      rw [filter_cons, if_neg (by simpa using hpk), hall, length_cons]
    · have hmem : r ∈ ps := by
        obtain rfl | hmem := mem_cons.mp hr
        · exact absurd hk hpk
        · exact hmem
      rw [filter_cons, if_pos (by simpa using hpk), length_cons, ih hmem hps,
        length_cons]

end Sorted

/-! ## the first rows in falling order -/

section Latest

variable {key : ρ → κ}

/-- Falling order of the key. -/
def falling (key : ρ → κ) (a b : ρ) : Bool := decide (key b ≤ key a)

theorem falling_trans (a b c : ρ) (hab : falling key a b = true) (hbc : falling key b c = true) : falling key a c = true :=
  decide_eq_true ((of_decide_eq_true hbc).trans (of_decide_eq_true hab))

theorem falling_total (a b : ρ) : (falling key a b || falling key b a) = true := by
  simp only [falling, Bool.or_eq_true, decide_eq_true_eq]
  exact le_total _ _

/-- The first `n` rows in falling order of the key, however rows of one key are ordered. -/
def Latest (key : ρ → κ) (n : Nat) (rows out : List ρ) : Prop :=
  ∃ ordered : List ρ, ordered.Perm rows ∧ (ordered.Pairwise fun a b => falling key a b = true) ∧ out = ordered.take n

theorem latest_mergeSort (key : ρ → κ) (n : Nat) (rows : List ρ) :
    Latest key n rows ((rows.mergeSort (falling key)).take n) :=
  ⟨_, mergeSort_perm _ _, pairwise_mergeSort falling_trans falling_total rows, rfl⟩

variable {n : Nat} {rows out : List ρ}

section

variable (h : Latest key n rows out)
include h

theorem Latest.perm {rows' : List ρ} (hperm : rows.Perm rows') : Latest key n rows' out := by
  obtain ⟨ordered, hordered, hsorted, hout⟩ := h
  exact ⟨ordered, hordered.trans hperm, hsorted, hout⟩

theorem Latest.mem {r : ρ} (hr : r ∈ out) : r ∈ rows := by
  obtain ⟨ordered, hperm, -, rfl⟩ := h
  exact hperm.mem_iff.mp (mem_of_mem_take hr)

/-- Where more rows are taken in than are wanted: the first rows are those of the wanted ones
exactly when they are all wanted. -/
theorem Latest.filter_iff (wanted : ρ → Bool) :
    Latest key n (rows.filter wanted) out ↔ ∀ r ∈ out, wanted r = true := by
  constructor
  · intro hwanted r hr
    exact (List.mem_filter.mp (hwanted.mem hr)).2
  · intro hall
    obtain ⟨ordered, hperm, hsorted, rfl⟩ := h
    refine ⟨ordered.filter wanted, hperm.filter _, hsorted.sublist filter_sublist, ?_⟩
    have hsplit : ordered.filter wanted = ordered.take n ++ (ordered.drop n).filter wanted := by
      conv => lhs; rw [← take_append_drop n ordered]
      rw [filter_append, List.filter_eq_self.mpr hall]
    rw [hsplit, take_append]
    by_cases hlen : ordered.length ≤ n
    · simp [drop_eq_nil_of_le hlen, take_take]
    · have hfull : (ordered.take n).length = n := length_take_of_le (by omega)
      simp [hfull, take_take]

theorem Latest.count_lt {r : ρ} (hr : r ∈ out) :
    (rows.filter fun q => decide (key r < key q)).length < n := by
  obtain ⟨ordered, hperm, hsorted, rfl⟩ := h
  obtain ⟨before, after, hsplit⟩ := append_of_mem hr
  have hlen : before.length < n := by
    have := congrArg List.length hsplit
    simp only [length_take, length_append, length_cons] at this
    omega
  have hwhole : ordered = before ++ r :: (after ++ ordered.drop n) := by
    conv => lhs; rw [← take_append_drop n ordered, hsplit]
    simp
  rw [hwhole, pairwise_append] at hsorted
  have hlater : ∀ q ∈ r :: (after ++ ordered.drop n), decide (key r < key q) ≠ true := by
    intro q hq
    refine fun hlt => absurd (of_decide_eq_true hlt) (not_lt.mpr ?_)
    obtain rfl | hq := mem_cons.mp hq
    · exact le_rfl
    · exact of_decide_eq_true (rel_of_pairwise_cons hsorted.2.1 hq)
  calc (rows.filter fun q => decide (key r < key q)).length
      = (ordered.filter fun q => decide (key r < key q)).length := (hperm.filter _).length_eq.symm
    _ = (before.filter fun q => decide (key r < key q)).length := by
        rw [hwhole, filter_append, List.filter_eq_nil_iff.mpr hlater, append_nil]
    _ ≤ before.length := length_filter_le _ _
    _ < n := hlen

end

/-- A row that comes first is among the first rows, unless enough of them are before it. -/
theorem mem_take_mergeSort_cons {r : ρ} (rows : List ρ)
    (h : ((r :: rows).filter fun q => decide (key r < key q)).length < n) :
    r ∈ ((r :: rows).mergeSort (falling key)).take n := by
  obtain ⟨before, after, hsort, hrest, hbefore⟩ := @List.mergeSort_cons _ (falling key) falling_trans falling_total r rows
  have hnewer : ∀ q ∈ before, decide (key r < key q) = true := by
    intro q hq
    simpa [falling] using hbefore q hq
  have hlen : before.length < n := by
    refine Nat.lt_of_le_of_lt ?_ h
    calc before.length = (before.filter fun q => decide (key r < key q)).length := by
          rw [List.filter_eq_self.mpr hnewer]
      _ ≤ ((before ++ r :: after).filter fun q => decide (key r < key q)).length := by
          rw [filter_append, length_append]
          exact Nat.le_add_right _ _
      _ = ((r :: rows).filter fun q => decide (key r < key q)).length :=
          ((hsort ▸ mergeSort_perm (r :: rows) (falling key)).filter _).length_eq
  rw [hsort, take_append, mem_append]
  right
  obtain ⟨m, hm⟩ := Nat.exists_eq_add_of_lt hlen
  rw [hm, Nat.add_assoc, Nat.add_sub_cancel_left]
  exact mem_cons_self

end Latest

end SmithsNet.Lib
