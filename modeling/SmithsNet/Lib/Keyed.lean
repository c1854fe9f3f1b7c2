import SmithsNet.Lib.KeyMap

/-!
# SmithsNet.Lib.Keyed

Tables of records that name their own key, and streams of changes to them.

A change replaces or removes one record, so what a stream does to a key is what
its last change of that key says (`lastFor`, `find_applyAll`), and two streams
that are interleaved differently agree wherever they agree key by key.  A
table can be written out as the list of its records and read back; a list that
is collected shard by shard while the table changes reads back as each key's
shard had it (`find_restore_collect`).
-/

namespace SmithsNet.Lib

/-- Records that name the key they are stored under. -/
class KeyOf (ν : Type) (κ : outParam Type) where
  key : ν → κ

variable {κ ν : Type} [KeyOf ν κ]

/-- A change of one record. -/
inductive Change (κ ν : Type)
  | upsert (record : ν)
  | delete (key : κ)
  deriving DecidableEq

namespace Change

/-- The key a change is about. -/
def key : Change κ ν → κ
  | upsert r => KeyOf.key r
  | delete k => k

/-- What a change leaves under its key. -/
def value : Change κ ν → Option ν
  | upsert r => some r
  | delete _ => none

end Change

variable [DecidableEq κ]

/-! ## the last change of a key -/

/-- What the last change of `k` in a stream leaves there, if there is one. -/
def lastFor (k : κ) : List (Change κ ν) → Option (Option ν)
  | [] => none
  | c :: cs => (lastFor k cs).or (if c.key = k then some c.value else none)

@[simp] theorem lastFor_nil (k : κ) : lastFor k ([] : List (Change κ ν)) = none := rfl

theorem lastFor_cons (k : κ) (c : Change κ ν) (cs : List (Change κ ν)) :
    lastFor k (c :: cs) = (lastFor k cs).or (if c.key = k then some c.value else none) := rfl

theorem lastFor_cons_self (c : Change κ ν) (cs : List (Change κ ν)) :
    lastFor c.key (c :: cs) = (lastFor c.key cs).or (some c.value) := by
  rw [lastFor_cons, if_pos rfl]

theorem lastFor_cons_ne {k : κ} {c : Change κ ν} (h : c.key ≠ k) (cs : List (Change κ ν)) :
    lastFor k (c :: cs) = lastFor k cs := by
  rw [lastFor_cons, if_neg h, Option.or_none]

theorem lastFor_append (k : κ) (cs ds : List (Change κ ν)) :
    lastFor k (cs ++ ds) = (lastFor k ds).or (lastFor k cs) := by
  induction cs with
  | nil => rw [List.nil_append, lastFor_nil, Option.or_none]
  | cons c cs ih => rw [List.cons_append, lastFor_cons, lastFor_cons, ih, Option.or_assoc]

theorem lastFor_remove {k : κ} {c : Change κ ν} (h : c.key ≠ k) (cs ds : List (Change κ ν)) :
    lastFor k (cs ++ c :: ds) = lastFor k (cs ++ ds) := by
  rw [lastFor_append, lastFor_append, lastFor_cons_ne h]

theorem lastFor_eq_none_iff {k : κ} {cs : List (Change κ ν)} :
    lastFor k cs = none ↔ ∀ c ∈ cs, c.key ≠ k := by
  induction cs with
  | nil => simp
  | cons c cs ih =>
    rw [lastFor_cons, Option.or_eq_none_iff, ih, List.forall_mem_cons]
    by_cases h : c.key = k <;> simp [h]

theorem mem_of_lastFor_eq_some {k : κ} {v : Option ν} {cs : List (Change κ ν)}
    (h : lastFor k cs = some v) : ∃ c ∈ cs, c.key = k ∧ c.value = v := by
  induction cs with
  | nil => contradiction
  | cons c cs ih =>
    rw [lastFor_cons, Option.or_eq_some_iff] at h
    obtain h | ⟨_, h⟩ := h
    · obtain ⟨d, hd, hdv⟩ := ih h
      exact ⟨d, List.mem_cons_of_mem _ hd, hdv⟩
    · by_cases hk : c.key = k
      · rw [if_pos hk, Option.some.injEq] at h
        exact ⟨c, List.mem_cons_self, hk, h⟩
      · rw [if_neg hk] at h
        contradiction

theorem lastFor_move {c : Change κ ν} {as : List (Change κ ν)} (h : ∀ a ∈ as, a.key ≠ c.key)
    (k : κ) (cs bs : List (Change κ ν)) :
    lastFor k (cs ++ c :: (as ++ bs)) = lastFor k (cs ++ (as ++ c :: bs)) := by
  by_cases hk : c.key = k
  · subst hk
    simp only [lastFor_append, lastFor_cons_self, lastFor_eq_none_iff.mpr h, Option.or_none]
  · simp only [lastFor_append, lastFor_cons_ne hk]

theorem lastFor_append_of_some {k : κ} {v : Option ν} {ds : List (Change κ ν)}
    (h : lastFor k ds = some v) (cs : List (Change κ ν)) : lastFor k (cs ++ ds) = some v := by
  rw [lastFor_append, h, Option.some_or]


/-! ## tables -/

/-- A table whose records stand under the keys they name. -/
@[ext] structure Keyed (ν : Type) {κ : Type} [KeyOf ν κ] [DecidableEq κ] where
  map : KeyMap κ ν
  keyed : ∀ k r, map.lookup k = some r → KeyOf.key r = k

namespace Keyed

/-- The record under a key. -/
def find (t : Keyed ν) (k : κ) : Option ν := t.map.lookup k

/-- No records. -/
def empty : Keyed ν := ⟨∅, fun k r h => by simp at h⟩

/-- Store a record under its key. -/
def insert (t : Keyed ν) (r : ν) : Keyed ν where
  map := t.map.insert (KeyOf.key r) r
  keyed k r' h := by
    by_cases hk : k = KeyOf.key r
    · rw [hk, AList.lookup_insert, Option.some.injEq] at h
      rw [← h, hk]
    · rw [AList.lookup_insert_ne hk] at h
      exact t.keyed k r' h

/-- Remove the record under a key. -/
def remove (t : Keyed ν) (k : κ) : Keyed ν where
  map := t.map.erase k
  keyed k' r h := t.keyed k' r (KeyMap.within_erase k t.map k' r h)

/-- Carry out a change. -/
def apply (t : Keyed ν) : Change κ ν → Keyed ν
  | .upsert r => t.insert r
  | .delete k => t.remove k

/-- Carry out a stream of changes. -/
def applyAll (t : Keyed ν) (cs : List (Change κ ν)) : Keyed ν := cs.foldl apply t

/-- The records whose keys `p` accepts, in no particular order. -/
def values (t : Keyed ν) (p : κ → Bool) : List ν :=
  (t.map.entries.filter fun e => p e.1).map Sigma.snd

/-- The table that holds the given records, a later one in place of an earlier. -/
def restore (rs : List ν) : Keyed ν := rs.foldl insert empty

@[simp] theorem find_empty (k : κ) : (empty : Keyed ν).find k = none := rfl

section

variable (t : Keyed ν)

theorem find_apply_self (c : Change κ ν) : (t.apply c).find c.key = c.value := by
  cases c with
  | upsert r => exact AList.lookup_insert t.map
  | delete k => exact AList.lookup_erase k t.map

theorem find_apply_ne {c : Change κ ν} {k : κ} (h : c.key ≠ k) : (t.apply c).find k = t.find k := by
  cases c with
  | upsert r => exact AList.lookup_insert_ne (Ne.symm h)
  | delete k' => exact AList.lookup_erase_ne (Ne.symm h)

theorem apply_upsert_twice (r : ν) :
    (t.apply (.upsert r)).apply (.upsert r) = t.apply (.upsert r) :=
  Keyed.ext (AList.insert_insert t.map)

/-- **Reading a stream key by key.**  After a stream of changes a key holds
what its last change there left, or what it held before. -/
theorem find_applyAll (cs : List (Change κ ν)) (k : κ) :
    (t.applyAll cs).find k = (lastFor k cs).getD (t.find k) := by
  induction cs generalizing t with
  | nil => rfl
  | cons c cs ih =>
    have htail : (t.applyAll (c :: cs)).find k = ((t.apply c).applyAll cs).find k := rfl
    rw [htail, ih, lastFor_cons]
    cases lastFor k cs with
    | some v => rfl
    | none =>
      by_cases h : c.key = k
      · rw [if_pos h, ← h, find_apply_self]
        rfl
      · rw [if_neg h, find_apply_ne t h]
        rfl

theorem applyAll_append (cs ds : List (Change κ ν)) :
    t.applyAll (cs ++ ds) = (t.applyAll cs).applyAll ds := List.foldl_append

end

/-! ## writing a table out -/

theorem restore_eq_applyAll (rs : List ν) : restore rs = empty.applyAll (rs.map .upsert) := by
  unfold restore applyAll
  rw [List.foldl_map]
  rfl

theorem find_restore (rs : List ν) (k : κ) :
    (restore rs).find k = (lastFor k (rs.map .upsert)).getD none := by
  rw [restore_eq_applyAll, find_applyAll, find_empty]

theorem mem_values {t : Keyed ν} {p : κ → Bool} {r : ν} (h : r ∈ t.values p) :
    p (KeyOf.key r) = true := by
  obtain ⟨e, he, rfl⟩ := List.mem_map.mp h
  obtain ⟨hmem, hp⟩ := List.mem_filter.mp he
  rwa [t.keyed e.1 e.2 (AList.mem_lookup_iff.mpr hmem)]

/-- The written out records of a key are the record the table has for it. -/
theorem lastFor_values (t : Keyed ν) (p : κ → Bool) (k : κ) :
    lastFor k ((t.values p).map .upsert) = if p k then (t.find k).map some else none := by
  have hkeyed : ∀ e ∈ t.map.entries, KeyOf.key e.2 = e.1 := fun e he =>
    t.keyed e.1 e.2 (AList.mem_lookup_iff.mpr he)
  have hnodup := t.map.nodupKeys
  unfold values find AList.lookup
  generalize t.map.entries = es at hkeyed hnodup
  induction es with
  | nil => simp
  | cons e es ih =>
    obtain ⟨hnot, hnodup⟩ := List.nodupKeys_cons.mp hnodup
    obtain ⟨he, hkeyed⟩ := List.forall_mem_cons.mp hkeyed
    have ih := ih hkeyed hnodup
    by_cases hk : e.1 = k
    · -- the only entry of this key
      subst hk
      rw [List.dlookup_eq_none.mpr hnot, Option.map_none, ite_self] at ih
      by_cases hp : p e.1 = true
      · rw [List.filter_cons, if_pos hp, List.map_cons, List.map_cons, lastFor_cons, ih,
          Change.key, if_pos he, if_pos hp, List.dlookup_cons_eq]
        rfl
      · rw [List.filter_cons, if_neg hp, ih, if_neg hp]
    · rw [List.dlookup_cons_ne _ _ (Ne.symm hk), ← ih]
      by_cases hp : p e.1 = true
      · rw [List.filter_cons, if_pos hp, List.map_cons, List.map_cons]
        refine lastFor_cons_ne ?_ _
        rw [Change.key, he]
        exact hk
      · rw [List.filter_cons, if_neg hp]

/-- The records of a table that is read shard by shard while it changes:
`read i` is the table when shard `i` is read. -/
def collect {n : Nat} (shardOf : κ → Fin n) (read : Fin n → Keyed ν) : List ν :=
  (List.finRange n).flatMap fun i => (read i).values fun k => decide (shardOf k = i)

theorem lastFor_collect {n : Nat} (shardOf : κ → Fin n) (read : Fin n → Keyed ν) (k : κ)
    (is : List (Fin n)) :
    lastFor k ((is.flatMap fun i => (read i).values fun k => decide (shardOf k = i)).map .upsert) =
      if shardOf k ∈ is then ((read (shardOf k)).find k).map some else none := by
  induction is with
  | nil => rfl
  | cons i is ih =>
    rw [List.flatMap_cons, List.map_append, lastFor_append, ih, lastFor_values]
    by_cases hi : shardOf k = i
    · subst hi
      rw [if_pos (decide_eq_true rfl), if_pos List.mem_cons_self]
      split
      · exact Option.or_self
      · exact Option.none_or
    · have hread : ¬ decide (shardOf k = i) = true := by simpa using hi
      rw [if_neg hread, Option.or_none]
      simp only [List.mem_cons, hi, false_or]

/-- A table that is read shard by shard reads back, key by key, as it was when
the key's shard was read. -/
theorem find_restore_collect {n : Nat} (shardOf : κ → Fin n) (read : Fin n → Keyed ν) (k : κ) :
    (restore (collect shardOf read)).find k = (read (shardOf k)).find k := by
  rw [find_restore, collect, lastFor_collect, if_pos (List.mem_finRange _)]
  cases (read (shardOf k)).find k <;> rfl

end Keyed

end SmithsNet.Lib
