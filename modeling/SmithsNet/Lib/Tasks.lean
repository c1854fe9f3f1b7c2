import Mathlib

/-!
# SmithsNet.Lib.Tasks

Concurrent programs as interleavings: any number of tasks, each at some point
of its own program, over one shared state.  A task moves by atomic steps (what
happens between two awaits, or inside one critical section); between any two
moves the environment may change the shared state in its own ways, and new
tasks may appear.

* `invariant_of_moves` — what every move and every environment step keeps
  about the shared state holds in every reachable world;
* `run_alone` — a task that meets nobody on its way is a run of the system.
-/

namespace SmithsNet.Lib

/-- A program: the tasks that may be started, what the environment may do to
the shared state, and the atomic moves of a task (`none`: it is finished). -/
structure Program (σ τ : Type) where
  start : τ → Prop
  env : σ → σ → Prop
  move : σ → τ → σ → Option τ → Prop

/-- A shared state and the tasks that are running. -/
structure World (σ τ : Type) where
  shared : σ
  tasks : Nat → Option τ

namespace Program

variable {σ τ : Type}

/-- Nothing is running yet. -/
def idle (s : σ) : World σ τ := ⟨s, fun _ => none⟩

/-- One step of the whole system. -/
inductive Step (p : Program σ τ) : World σ τ → World σ τ → Prop
  | env {w s'} (h : p.env w.shared s') : Step p w ⟨s', w.tasks⟩
  | spawn {w} (i : Nat) (t : τ) (hi : w.tasks i = none) (h : p.start t) :
      Step p w ⟨w.shared, Function.update w.tasks i (some t)⟩
  | move {w s' t'} (i : Nat) (t : τ) (hi : w.tasks i = some t) (h : p.move w.shared t s' t') :
      Step p w ⟨s', Function.update w.tasks i t'⟩

/-- Runs: any number of steps. -/
abbrev Run (p : Program σ τ) : World σ τ → World σ τ → Prop := Relation.ReflTransGen p.Step

/-- An invariant of the shared state that every move and every environment
step keeps holds after every run. -/
theorem invariant_of_moves (p : Program σ τ) {I : σ → Prop} (henv : ∀ s s', I s → p.env s s' → I s')
    (hmove : ∀ s t s' t', I s → p.move s t s' t' → I s') {w w' : World σ τ} (hrun : p.Run w w')
    (h0 : I w.shared) : I w'.shared := by
  induction hrun with
  | refl => exact h0
  | tail _ hstep ih =>
    cases hstep with
    | env h => exact henv _ _ ih h
    | spawn i t hi h => exact ih
    | move i t hi h => exact hmove _ _ _ _ ih h

/-- One task runs from start to end with nothing in between. -/
inductive Alone (p : Program σ τ) : σ → τ → σ → Prop
  | last {s t s'} (h : p.move s t s' none) : Alone p s t s'
  | more {s t s₁ t₁ s'} (h : p.move s t s₁ (some t₁)) (rest : Alone p s₁ t₁ s') : Alone p s t s'

theorem step_alone (p : Program σ τ) {s s' : σ} {t : τ} {t' : Option τ} (h : p.move s t s' t') :
    p.Step ⟨s, Function.update (fun _ => none) 0 (some t)⟩
      ⟨s', Function.update (fun _ => none) 0 t'⟩ := by
  have hstep := Step.move (p := p) (w := ⟨s, Function.update (fun _ => none) 0 (some t)⟩) 0 t
    (by simp) h
  rwa [Function.update_idem] at hstep

theorem run_alone (p : Program σ τ) {s s' : σ} {t : τ} (hstart : p.start t)
    (h : p.Alone s t s') : p.Run (idle s) (idle s') := by
  have hgo : p.Run ⟨s, Function.update (fun _ => none) 0 (some t)⟩ (idle s') := by
    clear hstart
    induction h with
    | last h =>
      have hend : Function.update (fun _ : Nat => (none : Option τ)) 0 none = fun _ => none :=
        Function.update_eq_self 0 _
      have hstep := p.step_alone h
      rw [hend] at hstep
      exact .single hstep
    | more h rest ih => exact .head (p.step_alone h) ih
  exact .head (Step.spawn 0 t rfl hstart) hgo

end Program

end SmithsNet.Lib
