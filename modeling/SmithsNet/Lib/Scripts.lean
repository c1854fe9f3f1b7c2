import Mathlib
import SmithsNet.Lib.Exec

/-!
# SmithsNet.Lib.Scripts

Handlers that run side by side, each of them a script: the atomic operations it
has still to carry out.  A handler takes its first operation off the script and
may put others in its place; handlers of one owner run one after the other.

`Pending` asks whether any handler has still to carry out an operation, `Each`
says something of every operation still to be carried out, and `weigh` counts
them; the lemmas say what becomes of them when a handler starts or moves on.
-/

namespace SmithsNet.Lib

/-- A handler: whom it runs for, and what it has still to do. -/
structure Script (κ ο : Type) where
  owner : κ
  ops : List ο
  deriving DecidableEq

namespace Script

variable {κ ο : Type} {hs : List (Script κ ο)} {i : Nat} {c : κ} {o op : ο} {rest new : List ο}

/-- Some handler has still to carry `o` out. -/
def Pending (hs : List (Script κ ο)) (o : ο) : Prop := ∃ h ∈ hs, o ∈ h.ops

instance [DecidableEq ο] : Decidable (Pending hs o) :=
  inferInstanceAs (Decidable (∃ h ∈ hs, o ∈ h.ops))

/-- No handler of this owner is at work. -/
def Free (hs : List (Script κ ο)) (c : κ) : Prop := ∀ h ∈ hs, h.owner = c → h.ops = []

instance [DecidableEq κ] [DecidableEq ο] : Decidable (Free hs c) :=
  inferInstanceAs (Decidable (∀ _ ∈ _, _ → _))

/-- No handler is at work. -/
def Quiet (hs : List (Script κ ο)) : Prop := ∀ h ∈ hs, h.ops = []

instance [DecidableEq ο] : Decidable (Quiet hs) :=
  inferInstanceAs (Decidable (∀ h ∈ hs, h.ops = []))

theorem Quiet.not_pending (h : Quiet hs) : ¬ Pending hs o := by
  rintro ⟨s, hs, ho⟩
  rw [h s hs] at ho
  contradiction

theorem pending_head (h : hs[i]? = some ⟨c, op :: rest⟩) : Pending hs op :=
  ⟨_, List.mem_of_getElem? h, List.mem_cons_self⟩

theorem pending_append : Pending (hs ++ [⟨c, new⟩]) o ↔ Pending hs o ∨ o ∈ new := by
  simp only [Pending, List.mem_append, List.mem_singleton, or_and_right, exists_or, exists_eq_left]

section

variable (h : hs[i]? = some ⟨c, op :: rest⟩)
include h

theorem pending_set (ho : Pending (hs.set i ⟨c, new ++ rest⟩) o) : Pending hs o ∨ o ∈ new := by
  obtain ⟨s, hs', ho⟩ := ho
  obtain hmem | rfl := List.mem_or_eq_of_mem_set hs'
  · exact Or.inl ⟨s, hmem, ho⟩
  · obtain ho | ho := List.mem_append.mp ho
    · exact Or.inr ho
    · exact Or.inl ⟨_, List.mem_of_getElem? h, List.mem_cons_of_mem _ ho⟩

theorem pending_of_set (new : List ο) (ho : Pending hs o) :
    o = op ∨ Pending (hs.set i ⟨c, new ++ rest⟩) o := by
  obtain ⟨s, hmem, ho⟩ := ho
  obtain ⟨j, hj⟩ := List.getElem?_of_mem hmem
  by_cases hij : i = j
  · subst hij
    obtain rfl : ⟨c, op :: rest⟩ = s := Option.mem_unique h hj
    obtain rfl | ho := List.mem_cons.mp ho
    · exact Or.inl rfl
    · refine Or.inr ⟨⟨c, new ++ rest⟩, ?_, List.mem_append_right _ ho⟩
      exact List.mem_set (List.getElem?_eq_some_iff.mp h).1 _
  · refine Or.inr ⟨s, ?_, ho⟩
    refine List.mem_of_getElem? (i := j) ?_
    rw [List.getElem?_set_ne hij, hj]

theorem pending_new (ho : o ∈ new) : Pending (hs.set i ⟨c, new ++ rest⟩) o :=
  ⟨⟨c, new ++ rest⟩, List.mem_set (List.getElem?_eq_some_iff.mp h).1 _, List.mem_append_left _ ho⟩

end

/-! ## what holds of every pending operation -/

/-- Every pending operation, with the owner of its handler. -/
def Each (p : κ → ο → Prop) (hs : List (Script κ ο)) : Prop := ∀ h ∈ hs, ∀ o ∈ h.ops, p h.owner o

theorem Each.head {p : κ → ο → Prop} (h : Each p hs) (hi : hs[i]? = some ⟨c, op :: rest⟩) : p c op :=
  h _ (List.mem_of_getElem? hi) op List.mem_cons_self

theorem Each.imp {p q : κ → ο → Prop} (h : Each p hs) (hpq : ∀ c o, p c o → q c o) : Each q hs :=
  fun s hs o ho => hpq s.owner o (h s hs o ho)

theorem Each.append {p : κ → ο → Prop} (h : Each p hs) (hnew : ∀ o ∈ new, p c o) :
    Each p (hs ++ [⟨c, new⟩]) := by
  intro s hs'
  obtain hs' | hs' := List.mem_append.mp hs'
  · exact h s hs'
  · obtain rfl := List.mem_singleton.mp hs'
    exact hnew

theorem Each.set {p : κ → ο → Prop} (h : Each p hs) (hi : hs[i]? = some ⟨c, op :: rest⟩)
    (hnew : ∀ o ∈ new, p c o) : Each p (hs.set i ⟨c, new ++ rest⟩) := by
  intro s hs' o ho
  obtain hs' | rfl := List.mem_or_eq_of_mem_set hs'
  · exact h s hs' o ho
  · obtain ho | ho := List.mem_append.mp ho
    · exact hnew o ho
    · exact h _ (List.mem_of_getElem? hi) o (List.mem_cons_of_mem _ ho)

/-! ## counting what is pending -/

/-- The weight of everything pending. -/
def weigh (w : ο → Nat) (hs : List (Script κ ο)) : Nat := total (fun h => total w h.ops) hs

variable {w : ο → Nat}

@[simp] theorem weigh_nil : weigh w ([] : List (Script κ ο)) = 0 := rfl

theorem weigh_append : weigh w (hs ++ [⟨c, new⟩]) = weigh w hs + total w new := by
  simp [weigh]

theorem weigh_set (h : hs[i]? = some ⟨c, op :: rest⟩) (new : List ο) :
    weigh w (hs.set i ⟨c, new ++ rest⟩) + w op = weigh w hs + total w new := by
  have htotal := total_set (fun h : Script κ ο => total w h.ops) h ⟨c, new ++ rest⟩
  simp only [total_cons, total_append] at htotal
  unfold weigh
  omega

theorem le_weigh (ho : Pending hs o) : w o ≤ weigh w hs := by
  obtain ⟨g, hg, ho⟩ := ho
  exact Nat.le_trans (le_total_of_mem w ho)
    (le_total_of_mem (fun h : Script κ ο => total w h.ops) hg)

theorem Quiet.weigh_eq_zero (h : Quiet hs) : weigh w hs = 0 := by
  refine total_eq_zero fun g hg => ?_
  rw [h g hg, total_nil]

/-- Where all that is pending weighs at most one, only one operation weighs anything. -/
theorem pending_unique {o' : ο} (h : weigh w hs ≤ 1) (ho : Pending hs o) (ho' : Pending hs o')
    (hw : 0 < w o) (hw' : 0 < w o') : o = o' := by
  by_contra hne
  obtain ⟨g, hg, ho⟩ := ho
  obtain ⟨g', hg', ho'⟩ := ho'
  by_cases hgg : g = g'
  · -- both in one handler
    subst hgg
    have htwo := add_le_total_of_mem w ho ho' hne
    have hle : total w g.ops ≤ weigh w hs := le_total_of_mem (fun h : Script κ ο => total w h.ops) hg
    omega
  · have htwo : total w g.ops + total w g'.ops ≤ weigh w hs :=
      add_le_total_of_mem (fun h : Script κ ο => total w h.ops) hg hg' hgg
    have hone := le_total_of_mem w ho
    have hone' := le_total_of_mem w ho'
    omega

end Script

end SmithsNet.Lib
