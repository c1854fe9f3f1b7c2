import Mathlib

/-!
# SmithsNet.Lib.Pieces

A stream is a concatenation of pieces; a reader that has seen its first `n`
elements can have extracted exactly the pieces that end within them.

* `completed ms n` — the leading pieces that fit into the first `n` elements;
* `completed_add` — seeing `k` more elements completes what the rest of the
  pieces have in the elements left over and the `k` new ones;
* `completed_append_drop` — completed and remaining pieces are all of them.
-/

namespace SmithsNet.Lib

variable {α : Type}

/-- The leading pieces that fit into `n` elements. -/
def completed : List (List α) → Nat → List (List α)
  | [], _ => []
  | m :: ms, n => if m.length ≤ n then m :: completed ms (n - m.length) else []

/-- How many elements these pieces have. -/
def completedLength (ms : List (List α)) (n : Nat) : Nat := (completed ms n).flatten.length

section

variable (ms : List (List α))

theorem completed_cons_of_le {m : List α} {n : Nat} (h : m.length ≤ n) :
    completed (m :: ms) n = m :: completed ms (n - m.length) := by
  rw [completed, if_pos h]

theorem completed_cons_of_lt {m : List α} {n : Nat} (h : n < m.length) :
    completed (m :: ms) n = [] := by
  rw [completed, if_neg (by omega)]

theorem completedLength_cons_of_le {m : List α} {n : Nat} (h : m.length ≤ n) :
    completedLength (m :: ms) n = m.length + completedLength ms (n - m.length) := by
  simp [completedLength, completed_cons_of_le ms h]

theorem completedLength_cons_of_lt {m : List α} {n : Nat}
    (h : n < m.length) : completedLength (m :: ms) n = 0 := by
  simp [completedLength, completed_cons_of_lt ms h]

theorem completedLength_le (n : Nat) : completedLength ms n ≤ n := by
  induction ms generalizing n with
  | nil => simp [completedLength, completed]
  | cons m ms ih =>
    by_cases h : m.length ≤ n
    · have hrest := ih (n - m.length)
      rw [completedLength_cons_of_le ms h]
      omega
    · rw [completedLength_cons_of_lt ms (by omega)]
      omega

theorem completed_append_drop (n : Nat) :
    completed ms n ++ ms.drop (completed ms n).length = ms := by
  induction ms generalizing n with
  | nil => simp [completed]
  | cons m ms ih =>
    by_cases h : m.length ≤ n
    · rw [completed_cons_of_le ms h]
      simpa using ih (n - m.length)
    · rw [completed_cons_of_lt ms (by omega)]
      simp

theorem completed_flatten_length : completed ms ms.flatten.length = ms := by
  induction ms with
  | nil => rfl
  | cons m ms ih =>
    have hlen : (m :: ms).flatten.length - m.length = ms.flatten.length := by simp
    rw [completed_cons_of_le ms (by simp), hlen, ih]

theorem completed_add (n k : Nat) : completed ms (n + k) = completed ms n ++
      completed (ms.drop (completed ms n).length) (n - completedLength ms n + k) := by
  induction ms generalizing n with
  | nil => simp [completed]
  | cons m ms ih =>
    by_cases h : m.length ≤ n
    · have hn : n + k - m.length = n - m.length + k := by omega
      have hsub : n - (m.length + completedLength ms (n - m.length)) =
          n - m.length - completedLength ms (n - m.length) := by omega
      rw [completed_cons_of_le ms h, completed_cons_of_le ms (by omega), hn, ih,
        completedLength_cons_of_le ms h, hsub]
      simp only [List.cons_append, List.length_cons, List.drop_succ_cons]
    · have hnone : completed (m :: ms) n = [] := completed_cons_of_lt ms (by omega)
      simp [hnone, completedLength]

theorem completedLength_add (n k : Nat) : completedLength ms (n + k) = completedLength ms n +
      completedLength (ms.drop (completed ms n).length) (n - completedLength ms n + k) := by
  unfold completedLength
  rw [completed_add]
  simp [completedLength]

theorem flatten_drop_completed (n : Nat) :
    ms.flatten.drop (completedLength ms n) = (ms.drop (completed ms n).length).flatten := by
  have h : ms.flatten = (completed ms n).flatten ++ (ms.drop (completed ms n).length).flatten := by
    rw [← List.flatten_append, completed_append_drop]
  unfold completedLength
  rw [h, List.drop_left]

end

/-! ## cutting by sizes -/

/-- Cut pieces of the given sizes off the front; the rest is the last piece. -/
def cut : List Nat → List α → List (List α)
  | [], s => [s]
  | k :: ks, s => s.take k :: cut ks (s.drop k)

theorem flatten_cut (ks : List Nat) (s : List α) : (cut ks s).flatten = s := by
  induction ks generalizing s with
  | nil => simp [cut]
  | cons k ks ih => simp [cut, ih]

theorem ne_nil_of_mem_cut {ks : List Nat} {s : List α} (hpos : ∀ k ∈ ks, 0 < k)
    (hsum : ks.sum < s.length) : ∀ c ∈ cut ks s, c ≠ [] := by
  induction ks generalizing s with
  | nil =>
    intro c hc
    rw [cut, List.mem_singleton] at hc
    rw [hc]
    exact List.ne_nil_of_length_pos (by simpa using hsum)
  | cons k ks ih =>
    intro c hc
    rw [List.sum_cons] at hsum
    rw [cut, List.mem_cons] at hc
    obtain rfl | hc := hc
    · have hk := hpos k (by simp)
      exact List.ne_nil_of_length_pos (by rw [List.length_take]; omega)
    · exact ih (fun k' hk' => hpos k' (by simp [hk']))
        (by rw [List.length_drop]; omega) c hc

end SmithsNet.Lib
