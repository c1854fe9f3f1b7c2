import SmithsNet.Lib.Table

/-!
# SmithsNet.Lib.Leases

Pairs of keys and partners that run out: one table maps a key to its partner and
to when the pair runs out, a second one finds the key of a partner.  A pair is
made only when neither side has another live one, and what has run out is
dropped in both tables at once.

* `Paired` — the tables are inverse to each other, kept by every step;
* `Paired.partner_eq_some_iff` — so among live pairs the key and the partner
  determine each other;
* `Step.partner`, `Step.holder` — what is live when a step is taken keeps its
  other side.
-/

namespace SmithsNet.Lib

variable {κ ν : Type}

/-- Pairs that run out, and the index of their partners. -/
structure Leases (κ ν : Type) where
  forward : Table κ (ν × Nat)
  backward : Table ν κ

namespace Leases

def empty : Leases κ ν := ⟨.empty, .empty⟩

/-- The partner of a key, if the pair is live. -/
def partner (l : Leases κ ν) (k : κ) (now : Nat) : Option ν :=
  ((l.forward k).filter fun b => decide (now < b.2)).map Prod.fst

/-- The key of a partner, if it has a live pair. -/
def holder (l : Leases κ ν) (v : ν) (now : Nat) : Option κ :=
  (l.backward v).bind fun k => (l.partner k now).map fun _ => k

/-- Drop what has run out. -/
def prune (l : Leases κ ν) (now : Nat) : Leases κ ν where
  forward := l.forward.retain fun _ b => decide (now < b.2)
  backward := l.backward.retain fun _ k => (l.forward.retain (fun _ b => decide (now < b.2)) k).isSome

/-- Enter a pair, or renew it. -/
def bind [DecidableEq κ] [DecidableEq ν] (l : Leases κ ν) (k : κ) (v : ν) (expiry : Nat) : Leases κ ν where
  forward := l.forward.insert k (v, expiry)
  backward := l.backward.insert v k

/-- Neither side has another live pair. -/
def Free (l : Leases κ ν) (k : κ) (v : ν) (now : Nat) : Prop :=
  (∀ v', l.partner k now = some v' → v' = v) ∧ ∀ k', l.holder v now = some k' → k' = k

/-- What can happen to the pairs at a time. -/
inductive Step [DecidableEq κ] [DecidableEq ν] (now : Nat) : Leases κ ν → Leases κ ν → Prop
  | keep (l : Leases κ ν) : Step now l l
  | prune (l : Leases κ ν) : Step now l (l.prune now)
  | bind (l : Leases κ ν) (k : κ) (v : ν) (expiry : Nat) (h : (l.prune now).Free k v now) :
      Step now l ((l.prune now).bind k v expiry)

/-- Each table is the other's inverse. -/
structure Paired (l : Leases κ ν) : Prop where
  forth : ∀ k v expiry, l.forward k = some (v, expiry) → l.backward v = some k
  back : ∀ v k, l.backward v = some k → ∃ expiry, l.forward k = some (v, expiry)

variable {l l' : Leases κ ν} {k : κ} {v : ν} {now t : Nat}

theorem partner_eq_some : l.partner k now = some v ↔ ∃ expiry, l.forward k = some (v, expiry) ∧ now < expiry := by
  simp [partner, Option.filter_eq_some_iff]

theorem paired_empty : (empty : Leases κ ν).Paired :=
  ⟨fun _ _ _ h => by contradiction, fun _ _ h => by contradiction⟩

theorem Paired.partner_eq_some_iff (h : l.Paired) :
    l.partner k now = some v ↔ l.holder v now = some k := by
  constructor
  · intro hpartner
    obtain ⟨expiry, hk, -⟩ := partner_eq_some.mp hpartner
    rw [holder, h.forth k v expiry hk, Option.bind_some, hpartner, Option.map_some]
  · intro hholder
    obtain ⟨k', hv, hlive⟩ := Option.bind_eq_some_iff.mp hholder
    obtain ⟨v', hpartner, rfl⟩ := Option.map_eq_some_iff.mp hlive
    obtain ⟨expiry, hk⟩ := h.back v k' hv
    obtain ⟨expiry', hk', hnow⟩ := partner_eq_some.mp hpartner
    obtain ⟨rfl, rfl⟩ : v' = v ∧ expiry' = expiry := by simpa [hk] using hk'.symm
    exact hpartner

theorem forward_prune {b : ν × Nat} :
    (l.prune now).forward k = some b ↔ l.forward k = some b ∧ now < b.2 := by
  simp only [prune, Table.retain_eq_some, decide_eq_true_eq]

theorem Paired.backward_prune (h : l.Paired) :
    (l.prune now).backward v = some k ↔ l.holder v now = some k := by
  rw [← h.partner_eq_some_iff, partner_eq_some]
  simp only [prune, Table.retain_eq_some, Option.isSome_iff_exists]
  constructor
  · rintro ⟨hv, b, hb⟩
    obtain ⟨expiry, hk⟩ := h.back v k hv
    obtain ⟨hb, hnow⟩ := hb
    rw [hk] at hb
    obtain rfl := Option.some.inj hb
    exact ⟨expiry, hk, of_decide_eq_true hnow⟩
  · rintro ⟨expiry, hk, hnow⟩
    exact ⟨h.forth k v expiry hk, (v, expiry), hk, decide_eq_true hnow⟩

theorem Paired.prune (h : l.Paired) (now : Nat) : (l.prune now).Paired := by
  constructor
  · intro k v expiry hk
    obtain ⟨hk, hnow⟩ := forward_prune.mp hk
    rw [h.backward_prune, ← h.partner_eq_some_iff]
    exact partner_eq_some.mpr ⟨expiry, hk, hnow⟩
  · intro v k hv
    rw [h.backward_prune, ← h.partner_eq_some_iff] at hv
    obtain ⟨expiry, hk, hnow⟩ := partner_eq_some.mp hv
    exact ⟨expiry, forward_prune.mpr ⟨hk, hnow⟩⟩

theorem partner_prune (h : now ≤ t) : (l.prune now).partner k t = l.partner k t := by
  ext v
  rw [partner_eq_some, partner_eq_some]
  constructor
  · rintro ⟨expiry, hk, ht⟩
    exact ⟨expiry, (forward_prune.mp hk).1, ht⟩
  · rintro ⟨expiry, hk, ht⟩
    exact ⟨expiry, forward_prune.mpr ⟨hk, by simp only; omega⟩, ht⟩

theorem Paired.holder_prune (hl : l.Paired) (h : now ≤ t) :
    (l.prune now).holder v t = l.holder v t := by
  ext k
  rw [← (hl.prune now).partner_eq_some_iff, ← hl.partner_eq_some_iff, partner_prune h]

variable [DecidableEq κ] [DecidableEq ν]

/-- A pair of which neither side has another live one keeps the tables inverse. -/
theorem Paired.bind (h : l.Paired) {expiry : Nat} (hfree : (l.prune now).Free k v now) :
    ((l.prune now).bind k v expiry).Paired := by
  have hpruned := h.prune now
  -- in a pruned table every entry is live
  have hlive {k : κ} {v : ν} {exp : Nat} (hk : (l.prune now).forward k = some (v, exp)) :
      (l.prune now).partner k now = some v :=
    partner_eq_some.mpr ⟨exp, hk, (forward_prune.mp hk).2⟩
  constructor
  · intro k' v' exp' hk'
    simp only [Leases.bind, Table.insert_apply] at hk' ⊢
    split at hk'
    · next hk =>
      obtain ⟨rfl, -⟩ := Prod.mk.inj (Option.some.inj hk')
      rw [if_pos rfl, hk]
    · next hk =>
      have hv' : v' ≠ v := by
        rintro rfl
        exact hk (hfree.2 k' (hpruned.partner_eq_some_iff.mp (hlive hk')))
      rw [if_neg hv', hpruned.forth k' v' exp' hk']
  · intro v' k' hv'
    simp only [Leases.bind, Table.insert_apply] at hv' ⊢
    split at hv'
    · next hv =>
      obtain rfl := Option.some.inj hv'
      exact ⟨expiry, by rw [if_pos rfl, hv]⟩
    · next hv =>
      obtain ⟨exp', hk'⟩ := hpruned.back v' k' hv'
      have hne : k' ≠ k := by
        rintro rfl
        exact hv (hfree.1 v' (hlive hk'))
      exact ⟨exp', by rw [if_neg hne, hk']⟩

theorem Step.paired (h : Step now l l') (hl : l.Paired) : l'.Paired := by
  cases h with
  | keep => exact hl
  | prune => exact hl.prune now
  | bind k v expiry hfree => exact hl.bind hfree

theorem Step.partner (h : Step now l l') (hk : l.partner k now = some v) :
    ∃ expiry, l'.forward k = some (v, expiry) := by
  obtain ⟨expiry, hforward, hnow⟩ := partner_eq_some.mp hk
  cases h with
  | keep => exact ⟨expiry, hforward⟩
  | prune => exact ⟨expiry, forward_prune.mpr ⟨hforward, hnow⟩⟩
  | bind k₀ v₀ expiry₀ hfree =>
    simp only [Leases.bind, Table.insert_apply]
    split
    · next heq =>
      subst heq
      have hsame := hfree.1 v (by rw [partner_prune (Nat.le_refl now), hk])
      exact ⟨expiry₀, by rw [hsame]⟩
    · exact ⟨expiry, forward_prune.mpr ⟨hforward, hnow⟩⟩

theorem Step.holder (h : Step now l l') (hl : l.Paired) (hv : l.holder v now = some k) :
    l'.backward v = some k := by
  obtain ⟨expiry, hforward⟩ := h.partner (hl.partner_eq_some_iff.mpr hv)
  exact (h.paired hl).forth k v expiry hforward

end Leases

end SmithsNet.Lib
