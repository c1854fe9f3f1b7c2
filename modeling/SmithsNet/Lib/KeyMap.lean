import Mathlib

/-!
# SmithsNet.Lib.KeyMap

Finite maps as the engine uses them: a hash map is a Mathlib association list
with distinct keys, of which nothing but `lookup`, the number of entries and
the set of entries is ever used.  Mathlib has `insert` and `erase`; added here
are `retain`, the sweep that keeps the entries a predicate accepts, and
`countKeys` and `countVals`, the number of keys and of values of a kind.
-/

namespace SmithsNet.Lib

/-- A finite map. -/
abbrev KeyMap (κ ν : Type) := AList (fun _ : κ => ν)

namespace KeyMap

variable {κ ν : Type} [DecidableEq κ]

/-- Number of entries. -/
def len (t : KeyMap κ ν) : Nat := t.entries.length

/-- Keep the entries `p` accepts. -/
def retain (p : κ → ν → Bool) (t : KeyMap κ ν) : KeyMap κ ν :=
  ⟨t.entries.filter fun e => p e.1 e.2, t.nodupKeys.sublist List.filter_sublist⟩

/-- Everything `s` holds, `t` holds too. -/
def Within (s t : KeyMap κ ν) : Prop := ∀ k v, s.lookup k = some v → t.lookup k = some v

theorem Within.refl (t : KeyMap κ ν) : Within t t := fun _ _ h => h

theorem within_retain (p : κ → ν → Bool) (t : KeyMap κ ν) : Within (retain p t) t := by
  intro k v h
  rw [← Option.mem_def, AList.mem_lookup_iff] at h ⊢
  exact (List.mem_filter.mp h).1

variable {t : KeyMap κ ν} {k : κ} {p : κ → ν → Bool} {v : ν}

theorem Within.mem {s : KeyMap κ ν} (h : Within s t) (hk : k ∈ s) : k ∈ t := by
  obtain ⟨v, hv⟩ := Option.isSome_iff_exists.mp (AList.lookup_isSome.mpr hk)
  exact AList.lookup_isSome.mp (by rw [h k v hv]; rfl)

theorem within_erase (k : κ) (t : KeyMap κ ν) : Within (t.erase k) t := by
  intro k' v h
  by_cases hk : k' = k
  · subst hk
    rw [AList.lookup_erase] at h
    contradiction
  · rwa [AList.lookup_erase_ne hk] at h

theorem lookup_retain
    (h : (retain p t).lookup k = some v) : t.lookup k = some v ∧ p k v = true := by
  refine ⟨within_retain p t k v h, ?_⟩
  rw [← Option.mem_def, AList.mem_lookup_iff] at h
  exact (List.mem_filter.mp h).2

theorem lookup_retain_of_accepted
    (h : t.lookup k = some v) (hp : p k v = true) : (retain p t).lookup k = some v := by
  rw [← Option.mem_def, AList.mem_lookup_iff] at h ⊢
  exact List.mem_filter.mpr ⟨h, hp⟩

/-- Number of keys `p` accepts. -/
def countKeys (p : κ → Bool) (t : KeyMap κ ν) : Nat := t.keys.countP p

theorem countKeys_insert (p : κ → Bool) (h : t.lookup k = none) (v : ν) :
    countKeys p (t.insert k v) = countKeys p t + if p k then 1 else 0 := by
  have hk : k ∉ t.keys := AList.lookup_eq_none.mp h
  rw [countKeys, AList.keys_insert, List.erase_of_not_mem hk, List.countP_cons, countKeys]

theorem countKeys_erase (p : κ → Bool) (h : t.lookup k = some v) :
    countKeys p (t.erase k) + (if p k then 1 else 0) = countKeys p t := by
  have hk : k ∈ t.keys := AList.lookup_isSome.mp (by rw [h]; rfl)
  rw [countKeys, countKeys, AList.keys_erase, (List.perm_cons_erase hk).countP_eq, List.countP_cons]

/-- Number of entries whose value `p` accepts. -/
def countVals (p : ν → Bool) (t : KeyMap κ ν) : Nat := t.entries.countP fun e => p e.2

theorem countVals_erase (p : ν → Bool) (h : t.lookup k = some v) :
    countVals p (t.erase k) + (if p v then 1 else 0) = countVals p t := by
  have hk : k ∈ t.entries.keys := AList.lookup_isSome.mp (by rw [h]; rfl)
  obtain ⟨v', l₁, l₂, hl₁, hentries, hkerase⟩ := List.exists_of_kerase hk
  obtain rfl : v' = v := by
    have hmem : ⟨k, v'⟩ ∈ t.entries := by simp [hentries]
    have hlookup := AList.mem_lookup_iff.mpr hmem
    rw [h] at hlookup
    exact (Option.some.inj hlookup).symm
  have herase : (t.erase k).entries = l₁ ++ l₂ := hkerase
  rw [countVals, countVals, herase, hentries]
  simp only [List.countP_append, List.countP_cons]
  omega

theorem countVals_erase_le (p : ν → Bool) (k : κ) (t : KeyMap κ ν) :
    countVals p (t.erase k) ≤ countVals p t :=
  (List.kerase_sublist k t.entries).countP_le

theorem countVals_insert (p : ν → Bool) (k : κ) (v : ν) (t : KeyMap κ ν) :
    countVals p (t.insert k v) = countVals p (t.erase k) + if p v then 1 else 0 := by
  have hentries : (t.insert k v).entries = ⟨k, v⟩ :: (t.erase k).entries := rfl
  rw [countVals, hentries, List.countP_cons, countVals]

/-- Change every value. -/
def mapVals (f : κ → ν → ν) (t : KeyMap κ ν) : KeyMap κ ν :=
  ⟨t.entries.map fun e => ⟨e.1, f e.1 e.2⟩, by
    rw [List.NodupKeys, List.keys, List.map_map]
    exact t.nodupKeys⟩

theorem lookup_mapVals (f : κ → ν → ν) (t : KeyMap κ ν) (k : κ) :
    (mapVals f t).lookup k = (t.lookup k).map (f k) :=
  List.dlookup_map₂ k

omit [DecidableEq κ] in
@[simp] theorem len_mapVals (f : κ → ν → ν) (t : KeyMap κ ν) : len (mapVals f t) = len t :=
  List.length_map _

omit [DecidableEq κ] in
theorem len_eq_countKeys (t : KeyMap κ ν) : len t = countKeys (fun _ => true) t := by
  rw [countKeys, List.countP_true, len, AList.keys, List.keys, List.length_map]

theorem len_insert (h : t.lookup k = none) (v : ν) : len (t.insert k v) = len t + 1 := by
  rw [len_eq_countKeys, len_eq_countKeys, countKeys_insert _ h, if_pos rfl]

theorem len_erase (h : t.lookup k = some v) : len (t.erase k) + 1 = len t := by
  have hcount := countKeys_erase (fun _ => true) h
  rwa [if_pos rfl, ← len_eq_countKeys, ← len_eq_countKeys] at hcount

theorem len_insert_of_some (h : t.lookup k = some v) (w : ν) : len (t.insert k w) = len t := by
  have hentries : (t.insert k w).entries = ⟨k, w⟩ :: (t.erase k).entries := rfl
  rw [← len_erase h, len, hentries, List.length_cons, len]

omit [DecidableEq κ] in
theorem len_retain (p : κ → ν → Bool) (t : KeyMap κ ν) :
    len (retain p t) + (t.entries.filter fun e => ! p e.1 e.2).length = len t := by
  rw [len, len, retain, ← List.countP_eq_length_filter, ← List.countP_eq_length_filter,
    List.length_eq_countP_add_countP fun e => p e.1 e.2]
  simp

theorem mem_entries_iff : ⟨k, v⟩ ∈ t.entries ↔ t.lookup k = some v := by
  rw [← Option.mem_def, AList.mem_lookup_iff]

theorem lookup_insert_apply (t : KeyMap κ ν) (k k' : κ) (v : ν) :
    (t.insert k v).lookup k' = if k' = k then some v else t.lookup k' := by
  split
  · next h =>
    subst h
    exact AList.lookup_insert t
  · next h => exact AList.lookup_insert_ne h

theorem lookup_erase_apply (t : KeyMap κ ν) (k k' : κ) :
    (t.erase k).lookup k' = if k' = k then none else t.lookup k' := by
  split
  · next h =>
    subst h
    exact AList.lookup_erase k' t
  · next h => exact AList.lookup_erase_ne h

theorem lookup_retain_apply (p : κ → ν → Bool) (t : KeyMap κ ν) (k : κ) :
    (retain p t).lookup k = (t.lookup k).filter (p k) := by
  ext v
  rw [Option.filter_eq_some_iff]
  exact ⟨fun h => lookup_retain h, fun h => lookup_retain_of_accepted h.1 h.2⟩

omit [DecidableEq κ] in
theorem retain_eq_self (h : ∀ e ∈ t.entries, p e.1 e.2 = true) : retain p t = t :=
  AList.ext (List.filter_eq_self.mpr h)

end KeyMap

end SmithsNet.Lib
