import Mathlib

/-!
# SmithsNet.Lib.Exec

Systems whose schedule is data: an action says which part of the system moves
and how every open choice falls, `step` computes the state it leads to (`none`
when the action is not possible there), and a run is a list of actions.

* `exec_invariant` — what every possible action keeps, every run keeps;
* `exec_invariant_of_meets` — the same for actions that meet a condition on the
  state they are taken in;
* `meets_iff` — where every other action breaks what holds, it holds along a run exactly
  when the run meets the condition;
* `exec_cause` — what holds after a run and did not before it, some action of the
  run has brought about;
* `exec_to_zero` — a run that lowers a measure, as long as some action can lower
  it, reaches a state where it is zero.

Where a system holds operations in progress, `total` weighs what they have
still to do; a step of one of them shifts the total by that step's weight.
-/

namespace SmithsNet.Lib

variable {σ α : Type}

/-- The state after a list of actions, if all of them are possible. -/
def exec (step : σ → α → Option σ) (s : σ) : List α → Option σ
  | [] => some s
  | a :: as => (step s a).bind fun s' => exec step s' as

theorem exec_append (step : σ → α → Option σ) (s : σ) (as bs : List α) :
    exec step s (as ++ bs) = (exec step s as).bind fun s' => exec step s' bs := by
  induction as generalizing s with
  | nil => rfl
  | cons a as ih => simp only [List.cons_append, exec, ih, Option.bind_assoc]

/-- Every action of the run meets `ok` in the state it is taken in. -/
def Meets (step : σ → α → Option σ) (ok : σ → α → Prop) (s : σ) : List α → Prop
  | [] => True
  | a :: as => ok s a ∧
      match step s a with
      | some s' => Meets step ok s' as
      | none => True

/-- Whether a given run meets a condition can be computed. -/
instance decidableMeets (step : σ → α → Option σ) (ok : σ → α → Prop)
    [∀ s a, Decidable (ok s a)] : ∀ s as, Decidable (Meets step ok s as)
  | _, [] => isTrue trivial
  | s, a :: as =>
    match h : step s a with
    | some s' =>
      have := decidableMeets step ok s' as
      decidable_of_iff (ok s a ∧ Meets step ok s' as) (by simp only [Meets, h])
    | none => decidable_of_iff (ok s a) (by simp only [Meets, h, and_true])

variable {as : List α} {s s' : σ} {I : σ → Prop} {step : σ → α → Option σ} {ok : σ → α → Prop}

theorem exec_invariant (hstep : ∀ s a s', I s → step s a = some s' → I s')
    (hexec : exec step s as = some s') (h0 : I s) : I s' := by
  induction as generalizing s with
  | nil =>
    rw [exec, Option.some.injEq] at hexec
    rwa [← hexec]
  | cons a as ih =>
    rw [exec, Option.bind_eq_some_iff] at hexec
    obtain ⟨s₁, hs₁, hrest⟩ := hexec
    exact ih hrest (hstep s a s₁ h0 hs₁)

theorem exec_invariant_of_meets (hstep : ∀ s a s', I s → ok s a → step s a = some s' → I s')
    (hexec : exec step s as = some s') (hmeets : Meets step ok s as) (h0 : I s) : I s' := by
  induction as generalizing s with
  | nil =>
    rw [exec, Option.some.injEq] at hexec
    rwa [← hexec]
  | cons a as ih =>
    rw [exec, Option.bind_eq_some_iff] at hexec
    obtain ⟨s₁, hs₁, hrest⟩ := hexec
    obtain ⟨hok, hmeets⟩ := hmeets
    rw [hs₁] at hmeets
    exact ih hrest hmeets (hstep s a s₁ h0 hok hs₁)

/-- What holds at the end and not at the start was brought about on the way. -/
theorem exec_cause (holds : σ → Prop) {cause : σ → α → Prop}
    (hstep : ∀ s a s', step s a = some s' → holds s' → holds s ∨ cause s a)
    (hexec : exec step s as = some s') (h0 : ¬ holds s) (h : holds s') :
    ∃ before a after s₁, as = before ++ a :: after ∧ exec step s before = some s₁ ∧ cause s₁ a := by
  induction as generalizing s with
  | nil =>
    rw [exec, Option.some.injEq] at hexec
    exact absurd (hexec ▸ h) h0
  | cons a as ih =>
    rw [exec, Option.bind_eq_some_iff] at hexec
    obtain ⟨s₁, hs₁, hrest⟩ := hexec
    by_cases hholds : holds s₁
    · exact ⟨[], a, as, s, rfl, rfl, (hstep s a s₁ hs₁ hholds).resolve_left h0⟩
    · obtain ⟨before, b, after, s₂, rfl, hbefore, hcause⟩ := ih hrest hholds
      refine ⟨a :: before, b, after, s₂, rfl, ?_, hcause⟩
      rw [exec, hs₁]
      exact hbefore

theorem Meets.at {before after : List α}
    {a : α} (h : Meets step ok s (before ++ a :: after)) (hexec : exec step s before = some s') :
    ok s' a := by
  induction before generalizing s with
  | nil =>
    rw [exec, Option.some.injEq] at hexec
    subst hexec
    exact h.1
  | cons b before ih =>
    rw [exec, Option.bind_eq_some_iff] at hexec
    obtain ⟨s₁, hs₁, hrest⟩ := hexec
    obtain ⟨_, h⟩ := h
    simp only [hs₁] at h
    exact ih h hrest

/-- Where every action that does not meet the condition breaks `P`, and the others keep
an invariant that gives it, `P` holds along a run exactly when the run meets the condition. -/
theorem meets_iff {P : σ → Prop}
    (hP : ∀ s, I s → P s) (hstep : ∀ s a s', I s → ok s a → step s a = some s' → I s')
    (hbad : ∀ s a s', I s → ¬ ok s a → step s a = some s' → ¬ P s')
    (hexec : exec step s as = some s') (h0 : I s) :
    (∀ before after s₁, as = before ++ after → exec step s before = some s₁ → P s₁) ↔ Meets step ok s as := by
  induction as generalizing s with
  | nil =>
    refine iff_of_true ?_ trivial
    intro before after s₁ happend hbefore
    obtain ⟨rfl, -⟩ := List.append_eq_nil_iff.mp happend.symm
    rw [exec, Option.some.injEq] at hbefore
    exact hbefore ▸ hP s h0
  | cons a as ih =>
    rw [exec, Option.bind_eq_some_iff] at hexec
    obtain ⟨s₂, hs₂, hrest⟩ := hexec
    constructor
    · intro hall
      have hok : ok s a := by
        by_contra hnot
        refine hbad s a s₂ h0 hnot hs₂ (hall [a] as s₂ rfl ?_)
        rw [exec, hs₂]
        rfl
      refine ⟨hok, ?_⟩
      rw [hs₂]
      refine (ih hrest (hstep s a s₂ h0 hok hs₂)).mp ?_
      intro before after s₁ happend hbefore
      refine hall (a :: before) after s₁ (congrArg (a :: ·) happend) ?_
      rw [exec, hs₂]
      exact hbefore
    · rintro ⟨hok, hmeets⟩
      rw [hs₂] at hmeets
      have hlater := (ih hrest (hstep s a s₂ h0 hok hs₂)).mpr hmeets
      intro before after s₁ happend hbefore
      cases before with
      | nil =>
        rw [exec, Option.some.injEq] at hbefore
        exact hbefore ▸ hP s h0
      | cons b before =>
        obtain ⟨rfl, hsame⟩ := List.cons.inj happend
        rw [exec, hs₂] at hbefore
        exact hlater before after s₁ hsame hbefore

/-- Where a measure can always be lowered, it can be lowered to zero, by actions
of one kind. -/
theorem exec_to_zero {kind : α → Prop} (measure : σ → Nat) (hstep : ∀ s, I s → 0 < measure s →
      ∃ a s', kind a ∧ step s a = some s' ∧ I s' ∧ measure s' < measure s)
    (s : σ) (h : I s) :
    ∃ as s', (∀ a ∈ as, kind a) ∧ exec step s as = some s' ∧ I s' ∧ measure s' = 0 := by
  induction hm : measure s using Nat.strongRecOn generalizing s with
  | ind m ih =>
    obtain hzero | hpos := Nat.eq_zero_or_pos (measure s)
    · exact ⟨[], s, fun a ha => absurd ha List.not_mem_nil, rfl, h, hzero⟩
    · obtain ⟨a, s₁, ha, hs₁, h₁, hlt⟩ := hstep s h hpos
      obtain ⟨as, s', has, hexec, h', hzero⟩ := ih (measure s₁) (hm ▸ hlt) s₁ h₁ rfl
      refine ⟨a :: as, s', ?_, ?_, h', hzero⟩
      · intro b hb
        obtain rfl | hb := List.mem_cons.mp hb
        · exact ha
        · exact has b hb
      · rw [exec, hs₁]
        exact hexec

/-! ## what is in progress -/

section Total

variable {φ : Type}

/-- The weight of a list of operations in progress. -/
def total (w : φ → Nat) (fs : List φ) : Nat := (fs.map w).sum

@[simp] theorem total_nil (w : φ → Nat) : total w [] = 0 := rfl

@[simp] theorem total_cons (w : φ → Nat) (f : φ) (fs : List φ) :
    total w (f :: fs) = w f + total w fs := by
  simp [total]

@[simp] theorem total_append (w : φ → Nat) (fs gs : List φ) :
    total w (fs ++ gs) = total w fs + total w gs := by
  simp [total]

variable {fs : List φ} {f : φ}

theorem total_set (w : φ → Nat) {i : Nat} (h : fs[i]? = some f) (f' : φ) :
    total w (fs.set i f') + w f = total w fs + w f' := by
  induction fs generalizing i with
  | nil => contradiction
  | cons g fs ih =>
    cases i with
    | zero =>
      obtain rfl : g = f := Option.some.inj h
      simp only [List.set_cons_zero, total_cons]
      omega
    | succ i =>
      have hrest := ih h
      simp only [List.set_cons_succ, total_cons]
      omega

theorem le_total_of_mem (w : φ → Nat) (h : f ∈ fs) : w f ≤ total w fs := by
  obtain ⟨as, bs, rfl⟩ := List.append_of_mem h
  simp only [total_append, total_cons]
  omega

theorem add_le_total_of_mem (w : φ → Nat) {g : φ} (hf : f ∈ fs) (hg : g ∈ fs)
    (hne : f ≠ g) : w f + w g ≤ total w fs := by
  obtain ⟨as, bs, rfl⟩ := List.append_of_mem hf
  simp only [List.mem_append, List.mem_cons, Ne.symm hne, false_or] at hg
  simp only [total_append, total_cons]
  obtain hg | hg := hg <;> have := le_total_of_mem w hg <;> omega

theorem total_eq_zero {w : φ → Nat} (h : ∀ f ∈ fs, w f = 0) : total w fs = 0 := by
  induction fs with
  | nil => rfl
  | cons f fs ih =>
    obtain ⟨hf, hfs⟩ := List.forall_mem_cons.mp h
    rw [total_cons, hf, ih hfs]

end Total

end SmithsNet.Lib
