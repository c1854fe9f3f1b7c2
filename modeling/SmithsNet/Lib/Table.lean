import Mathlib

/-!
# SmithsNet.Lib.Table

A hash map as the function it computes: two of them are equal when they hold the
same entries, and what an operation does is said key by key.
-/

namespace SmithsNet.Lib

/-- A hash map. -/
abbrev Table (κ ν : Type) := κ → Option ν

namespace Table

variable {κ ν : Type}

def empty : Table κ ν := fun _ => none

def insert [DecidableEq κ] (t : Table κ ν) (k : κ) (v : ν) : Table κ ν := Function.update t k (some v)

def erase [DecidableEq κ] (t : Table κ ν) (k : κ) : Table κ ν := Function.update t k none

def retain (p : κ → ν → Bool) (t : Table κ ν) : Table κ ν := fun k => (t k).filter (p k)

@[simp] theorem empty_apply (k : κ) : (empty : Table κ ν) k = none := rfl

theorem insert_apply [DecidableEq κ] (t : Table κ ν) (k k' : κ) (v : ν) :
    t.insert k v k' = if k' = k then some v else t k' := by
  simp [insert, Function.update_apply]

@[simp] theorem insert_self [DecidableEq κ] (t : Table κ ν) (k : κ) (v : ν) :
    t.insert k v k = some v := by
  simp [insert]

theorem erase_apply [DecidableEq κ] (t : Table κ ν) (k k' : κ) :
    t.erase k k' = if k' = k then none else t k' := by
  simp [erase, Function.update_apply]

theorem retain_eq_some {p : κ → ν → Bool} {t : Table κ ν} {k : κ} {v : ν} :
    t.retain p k = some v ↔ t k = some v ∧ p k v = true := by
  simp [retain, Option.filter_eq_some_iff]

end Table

end SmithsNet.Lib
