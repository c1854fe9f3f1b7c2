import SmithsNet.Lib.Wire

/-!
# SmithsNet.Lib.Checked

Code that indexes and slices byte strings: an access out of range stops it, and
so does an error it returns itself.  The two are told apart, so that "never
reads out of range" is a statement about the code's own bounds checks.

* `getAt_eq`, `bytesAt_eq`, `range_eq` — an access within the bounds gives what
  stands there;
* `InRange.bind` — a sequence of steps stays in range when each does;
* `inRange_of_lift` — code that equals an unchecked reading never leaves its bounds.
-/

namespace SmithsNet.Lib

/-- What code that reads by position stops with. -/
inductive Fault (ε : Type)
  | outOfRange
  | error (e : ε)
  deriving DecidableEq

/-- A computation that reads by position. -/
abbrev Checked (ε α : Type) := Except (Fault ε) α

namespace Checked

variable {ε α β : Type}

/-- The code's own error. -/
def fail (e : ε) : Checked ε α := .error (.error e)

/-- `s[i]` -/
def getAt (s : List α) (i : Nat) : Checked ε α :=
  match s[i]? with
  | some a => .ok a
  | none => .error .outOfRange

/-- `s[i]`, `s[i + 1]` and so on. -/
def bytesAt (s : List α) (i : Nat) : Nat → Checked ε (List α)
  | 0 => .ok []
  | k + 1 => do
      let a ← getAt s i
      let rest ← bytesAt s (i + 1) k
      return a :: rest

/-- `&s[i..j]` -/
def range (s : List α) (i j : Nat) : Checked ε (List α) :=
  if i ≤ j ∧ j ≤ s.length then .ok (slice s i (j - i)) else .error .outOfRange

/-- A reading whose bounds need no check. -/
def lift : Except ε α → Checked ε α
  | .ok a => .ok a
  | .error e => fail e

/-- The computation does not stop at an access out of range. -/
def InRange (x : Checked ε α) : Prop := x ≠ .error .outOfRange

variable {x : Checked ε α} {s : List α} {i j : Nat} {f : α → Checked ε β}

theorem getAt_eq (h : i < s.length) : (getAt s i : Checked ε α) = .ok s[i] := by
  simp [getAt, h]

theorem bytesAt_eq {k : Nat} (h : i + k ≤ s.length) :
    (bytesAt s i k : Checked ε (List α)) = .ok (slice s i k) := by
  induction k generalizing i with
  | zero => simp [bytesAt, slice]
  | succ k ih =>
    have hi : i < s.length := by omega
    have hslice : slice s i (k + 1) = s[i] :: slice s (i + 1) k := by
      rw [slice, List.drop_eq_getElem_cons hi, List.take_succ_cons, slice]
    rw [bytesAt, getAt_eq hi, ih (by omega), hslice]
    rfl

theorem range_eq (hij : i ≤ j) (hj : j ≤ s.length) :
    (range s i j : Checked ε (List α)) = .ok (slice s i (j - i)) := by
  rw [range, if_pos ⟨hij, hj⟩]

theorem range_length_eq (h : i ≤ s.length) :
    (range s i s.length : Checked ε (List α)) = .ok (s.drop i) := by
  rw [range_eq h (Nat.le_refl _), slice, List.take_of_length_le (by simp)]

theorem ok_bind (a : α) (f : α → Checked ε β) : (.ok a >>= f : Checked ε β) = f a := rfl

theorem bind_eq_ok {b : β} : x >>= f = .ok b ↔ ∃ a, x = .ok a ∧ f a = .ok b := by
  cases x with
  | ok a => simp [bind, Except.bind]
  | error e => simp [bind, Except.bind]

theorem check_eq_ok {c : Prop} [Decidable c] {e : ε} {a : α} :
    (if c then fail e else x) = .ok a ↔ ¬ c ∧ x = .ok a := by
  by_cases h : c <;> simp [h, fail]

theorem lift_bind (x : Except ε α) (f : α → Except ε β) : lift (x >>= f) = lift x >>= fun a => lift (f a) := by
  cases x <;> rfl

@[simp] theorem inRange_ok (a : α) : InRange (.ok a : Checked ε α) := by simp [InRange]

@[simp] theorem inRange_fail (e : ε) : InRange (fail e : Checked ε α) := by simp [InRange, fail]

theorem InRange.bind (hx : InRange x)
    (hf : ∀ a, x = .ok a → InRange (f a)) : InRange (x >>= f) := by
  cases x with
  | ok a => exact hf a rfl
  | error e =>
    intro h
    exact hx (by simpa [Bind.bind, Except.bind] using h)

theorem inRange_getAt (h : i < s.length) : InRange (getAt s i : Checked ε α) := by
  rw [getAt_eq h]
  exact inRange_ok _

theorem inRange_range (hij : i ≤ j) (hj : j ≤ s.length) :
    InRange (range s i j : Checked ε (List α)) := by
  rw [range_eq hij hj]
  exact inRange_ok _

theorem inRange_of_lift {y : Except ε α} (h : x = lift y) : InRange x := by
  rw [h]
  cases y with
  | ok a => exact inRange_ok a
  | error e => exact inRange_fail e

end Checked

end SmithsNet.Lib
