import Mathlib

/-!
# SmithsNet.Lib.Mealy

Deterministic machines with output: one event in, a new state and a list of
actions out.  A run is a list of events; its state and its output are folds
of the step function, and everything an observer can compute from the events
and the actions alone is a `monitor` (the timers currently armed, the bytes
last written, a count).

The rules below are the only inductions over runs that the rest of the
development needs:

* `monitor_invariant` — a relation between state and monitor that every step
  keeps holds after every run;
* `monitor_invariant_of_admissible` — the same for runs whose events all meet
  a guard at the moment they are fed;
* `forall_mem_outputs` — what every step guarantees of its own actions holds
  of everything a run emits.

`monitor_collect` turns a fact about the actions collected so far into one
about the outputs of the run.

This module depends only on Mathlib's list library.
-/

namespace SmithsNet.Lib

/-- The step function of a machine with states `σ`, events `ε`, actions `α`. -/
abbrev Mealy (σ ε α : Type) := σ → ε → σ × List α

namespace Mealy

variable {σ ε α β : Type}

/-- State after a list of events. -/
def stateAfter (m : Mealy σ ε α) (s : σ) : List ε → σ
  | [] => s
  | e :: es => stateAfter m (m s e).1 es

/-- Everything emitted along a list of events, in order. -/
def outputs (m : Mealy σ ε α) (s : σ) : List ε → List α
  | [] => []
  | e :: es => (m s e).2 ++ outputs m (m s e).1 es

/-- Fold of an observer over the run: `f` sees each event together with the
actions it produced. -/
def monitor (m : Mealy σ ε α) (f : β → ε → List α → β) (s : σ) (b : β) : List ε → β
  | [] => b
  | e :: es => monitor m f (m s e).1 (f b e (m s e).2) es

/-- Every event of the run meets the guard `g` in the state and the monitor
value it is fed at. -/
def Admissible (m : Mealy σ ε α) (f : β → ε → List α → β) (g : σ → β → ε → Prop)
    (s : σ) (b : β) : List ε → Prop
  | [] => True
  | e :: es => g s b e ∧ Admissible m f g (m s e).1 (f b e (m s e).2) es

theorem stateAfter_append (m : Mealy σ ε α) (s : σ) (es fs : List ε) :
    m.stateAfter s (es ++ fs) = m.stateAfter (m.stateAfter s es) fs := by
  induction es generalizing s with
  | nil => rfl
  | cons e es ih => exact ih (m s e).1

theorem outputs_append (m : Mealy σ ε α) (s : σ) (es fs : List ε) :
    m.outputs s (es ++ fs) = m.outputs s es ++ m.outputs (m.stateAfter s es) fs := by
  induction es generalizing s with
  | nil => rfl
  | cons e es ih =>
    have hrest := ih (m s e).1
    simp only [List.cons_append, outputs, stateAfter, hrest, List.append_assoc]

/-- A machine with one output for each event gives it at the event's place. -/
theorem getElem?_outputs {m : Mealy σ ε α} {out : σ → ε → α} (hout : ∀ s e, (m s e).2 = [out s e])
    (s : σ) (es : List ε) (i : Nat) :
    (m.outputs s es)[i]? = es[i]?.map (out (m.stateAfter s (es.take i))) := by
  induction es generalizing s i with
  | nil => rfl
  | cons e es ih =>
    rw [outputs, hout, List.singleton_append]
    cases i with
    | zero => rfl
    | succ i => exact ih (m s e).1 i

/-! ## the invariant rules -/

section

variable (m : Mealy σ ε α)

theorem monitor_invariant (f : β → ε → List α → β) {P : σ → β → Prop}
    (hstep : ∀ s b e, P s b → P (m s e).1 (f b e (m s e).2)) {s : σ} {b : β} (h0 : P s b)
    (es : List ε) : P (m.stateAfter s es) (m.monitor f s b es) := by
  induction es generalizing s b with
  | nil => exact h0
  | cons e es ih => exact ih (hstep s b e h0)

theorem monitor_invariant_of_admissible (f : β → ε → List α → β)
    {g : σ → β → ε → Prop} {P : σ → β → Prop}
    (hstep : ∀ s b e, P s b → g s b e → P (m s e).1 (f b e (m s e).2)) {s : σ} {b : β}
    (h0 : P s b) (es : List ε) (hadm : m.Admissible f g s b es) :
    P (m.stateAfter s es) (m.monitor f s b es) := by
  induction es generalizing s b with
  | nil => exact h0
  | cons e es ih => exact ih (hstep s b e h0 hadm.1) hadm.2

theorem monitor_collect (s : σ) (acc : List α) (es : List ε) :
    m.monitor (fun b _ as => b ++ as) s acc es = acc ++ m.outputs s es := by
  induction es generalizing s acc with
  | nil => simp [monitor, outputs]
  | cons e es ih => simp [monitor, outputs, ih]

/-- What holds of the actions of every step taken from a state satisfying a
kept property holds of all outputs. -/
theorem forall_mem_outputs {P : σ → Prop} {Q : α → Prop}
    (hstep : ∀ s e, P s → P (m s e).1 ∧ ∀ a ∈ (m s e).2, Q a) {s : σ} (h0 : P s)
    (es : List ε) : ∀ a ∈ m.outputs s es, Q a := by
  induction es generalizing s with
  | nil => simp [outputs]
  | cons e es ih =>
    intro a ha
    simp only [outputs, List.mem_append] at ha
    cases ha with
    | inl h => exact (hstep s e h0).2 a h
    | inr h => exact ih (hstep s e h0).1 a h

end

end Mealy

end SmithsNet.Lib
