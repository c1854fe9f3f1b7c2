import Mathlib

/-!
# SmithsNet.Lib.TokenBucket

A bucket that fills up with tokens at a rate, up to its capacity, and is asked for one token at
a time.  Tokens and times are exact; the clock counts nanoseconds.

* `level_of_idle` — a bucket left alone for the time it takes to fill up is full;
* `spend_of_full` — a full bucket answers like a new one.
-/

namespace SmithsNet.Lib

/-- Nanoseconds in seconds. -/
def secs (nanos : Nat) : ℚ := nanos / 10 ^ 9

theorem secs_mono {a b : Nat} (h : a ≤ b) : secs a ≤ secs b := by
  have hcast : (a : ℚ) ≤ b := by exact_mod_cast h
  unfold secs
  gcongr

theorem secs_nonneg (nanos : Nat) : 0 ≤ secs nanos := by
  unfold secs
  positivity

/-- The tokens of a bucket, and when they were counted. -/
structure Tokens where
  count : ℚ
  countedAt : Nat

namespace Tokens

section

variable (rate capacity : ℚ)

/-- The tokens at a later time. -/
def level (b : Tokens) (now : Nat) : ℚ := min (b.count + secs (now - b.countedAt) * rate) capacity

/-- Take a token out, if there is one. -/
def spend (b : Tokens) (now : Nat) : Bool × Tokens :=
  let level := b.level rate capacity now
  if 1 ≤ level then (true, ⟨level - 1, now⟩) else (false, ⟨level, now⟩)

/-- The answers of a bucket that is asked at these times. -/
def answers (b : Tokens) : List Nat → List Bool
  | [] => []
  | now :: nows => (b.spend rate capacity now).1 :: answers (b.spend rate capacity now).2 nows

end

variable {rate capacity : ℚ} {b : Tokens} {t now : Nat}

theorem level_nonneg (hrate : 0 ≤ rate) (hcapacity : 0 ≤ capacity) (hb : 0 ≤ b.count) :
    0 ≤ b.level rate capacity now :=
  le_min (add_nonneg hb (mul_nonneg (secs_nonneg _) hrate)) hcapacity

theorem spend_nonneg (hrate : 0 ≤ rate) (hcapacity : 0 ≤ capacity) (hb : 0 ≤ b.count) :
    0 ≤ (b.spend rate capacity now).2.count := by
  have hlevel : 0 ≤ b.level rate capacity now := level_nonneg hrate hcapacity hb
  unfold spend
  simp only
  split
  · next hone => exact sub_nonneg.mpr hone
  · exact hlevel

/-- Full from some time on. -/
def Full (rate capacity : ℚ) (b : Tokens) (t : Nat) : Prop := ∀ now, t ≤ now → b.level rate capacity now = capacity

theorem Full.later (h : b.Full rate capacity t) (hnow : t ≤ now) : b.Full rate capacity now :=
  fun _ hlater => h _ (hnow.trans hlater)

theorem full_of_count (hrate : 0 ≤ rate) (hb : b.count = capacity) (t : Nat) : b.Full rate capacity t := by
  intro now _
  have hgain := mul_nonneg (secs_nonneg (now - b.countedAt)) hrate
  exact min_eq_right (by linarith)

theorem level_of_idle (hrate : 0 < rate) (hb : 0 ≤ b.count) (hidle : capacity / rate ≤ secs (t - b.countedAt)) :
    b.Full rate capacity t := by
  intro now hnow
  have hlonger : secs (t - b.countedAt) ≤ secs (now - b.countedAt) := secs_mono (Nat.sub_le_sub_right hnow _)
  have hgain : capacity ≤ secs (now - b.countedAt) * rate := (div_le_iff₀ hrate).mp (hidle.trans hlonger)
  exact min_eq_right (by linarith)

theorem spend_of_full {b' : Tokens} (h : b.Full rate capacity now) (h' : b'.Full rate capacity now) :
    b.spend rate capacity now = b'.spend rate capacity now := by
  unfold spend
  rw [h now le_rfl, h' now le_rfl]

end Tokens

end SmithsNet.Lib
