import SmithsNet.Txn.Client
import SmithsNet.Txn.Server

/-!
# SmithsNet.Txn.Backoff

The retransmit intervals of RFC 3261 (`txn/timers.rs`): `doubling_backoff` on the
types it has in the source, and the intervals for which the machines arm timer A of
the client INVITE, timer E of the client non-INVITE and timer G of the server INVITE.

`intervals_backed_off`: whatever happens to a machine, it has armed its timer for the
first intervals of the sequence, and timers that fire one after the other go on with it.
-/

namespace SmithsNet.Txn

open Lib
open Transaction (state)
open TransactionAction

/-! ## `doubling_backoff` -/

/-- `std::time::Duration` in nanoseconds; its seconds have 64 bits. -/
structure Duration where
  nanos : Nat
  lt : nanos < 2 ^ 64 * 10 ^ 9

namespace Duration

/-- `Duration::MAX` -/
def maxNanos : Nat := 2 ^ 64 * 10 ^ 9 - 1

/-- `Duration::from_millis` -/
def fromMillis (ms : UInt64) : Duration :=
  ⟨ms.toNat * 10 ^ 6, by have := ms.toNat_lt; omega⟩

/-- `Duration::saturating_mul` -/
def saturatingMul (d : Duration) (k : UInt32) : Duration :=
  ⟨min (d.nanos * k.toNat) maxNanos, by unfold maxNanos; omega⟩

instance : Min Duration := ⟨fun a b => if a.nanos ≤ b.nanos then a else b⟩

/-- `u32::checked_shl` -/
def checkedShl (x n : UInt32) : Option UInt32 := if n < 32 then some (x <<< n) else none

def doublingBackoff (attempt : UInt32) (max : Duration) : Duration :=
  let multiplier := (checkedShl 1 (min attempt 16)).getD (UInt32.ofNat (2 ^ 32 - 1))
  let scaled := (fromMillis 500).saturatingMul multiplier
  min scaled max

end Duration

theorem capped_pow {base max c : Nat} (h : max ≤ base * 2 ^ 16) (hc : 16 ≤ c) (n : Nat) :
    min (base * 2 ^ min n c) max = min (base * 2 ^ n) max := by
  obtain hn | hn := Nat.le_total n c
  · rw [Nat.min_eq_left hn]
  · have hlarge : ∀ k, 16 ≤ k → max ≤ base * 2 ^ k := fun k hk =>
      Nat.le_trans h (Nat.mul_le_mul_left base (Nat.pow_le_pow_right (by decide) hk))
    rw [Nat.min_eq_right hn, Nat.min_eq_right (hlarge c hc), Nat.min_eq_right (hlarge n (Nat.le_trans hc hn))]

section

variable (attempt : UInt32)

end

/-! ## what is armed -/

/-- The first `n` intervals of the sequence: `T1`, doubled each time, and at most `max`. -/
def schedule (max n : Nat) : List Nat := (List.range n).map fun k => min (T1 * 2 ^ k) max

theorem schedule_succ (max n : Nat) : schedule max (n + 1) = schedule max n ++ [min (T1 * 2 ^ n) max] := by
  simp [schedule, List.range_succ]

/-- The first `n` intervals were armed, and the counter has kept up. -/
structure Paced (max attempt n : Nat) (armed : List Nat) : Prop where
  armed : armed = schedule max n
  counted : attempt = min (n - 1) (2 ^ 32 - 1)
  pos : 0 < n

variable {τ : Type} [Transaction τ] {max attempt n : Nat} {armed : List Nat} {t : τ} {id : TimerId}

theorem Paced.next (hmax : max ≤ T1 * 2 ^ 16) (h : Paced max attempt n armed) :
    Paced max (nextAttempt attempt) (n + 1) (armed ++ [doublingBackoff (nextAttempt attempt) max]) := by
  have hpos := h.pos
  have hcount : nextAttempt attempt = min n (2 ^ 32 - 1) := by
    rw [h.counted, nextAttempt]
    omega
  refine ⟨?_, hcount, Nat.succ_pos n⟩
  have hlarge : 16 ≤ 2 ^ 32 - 1 := by decide
  generalize 2 ^ 32 - 1 = c at hcount hlarge
  rw [schedule_succ, ← h.armed, hcount, doublingBackoff, capped_pow hmax (Nat.le_refl 16),
    capped_pow hmax hlarge]

namespace ClientInviteTxn

variable {t : ClientInviteTxn} {e : TransactionEvent}

end ClientInviteTxn

namespace ClientNonInviteTxn

variable {t : ClientNonInviteTxn} {e : TransactionEvent}

end ClientNonInviteTxn

namespace ServerInviteTxn

variable {t : ServerInviteTxn} {e : TransactionEvent}

/-- In Completed a final is there to be repeated. -/
def Repeats (t : ServerInviteTxn) : Prop := t.state = .completed ∧ t.lastResponse.isSome = true

/-- The intervals so far: none before a final, and none more once Completed is left. -/
structure Answers (t : ServerInviteTxn) (n : Nat) (sofar : List Nat) : Prop where
  armed : sofar = schedule T2 n
  unreliable : t.reliable = false
  proceeding : t.state = .proceeding → n = 0 ∧ t.gAttempt = 0
  completed : t.state = .completed → t.Repeats ∧ Paced T2 t.gAttempt n sofar

end ServerInviteTxn

/-! ## the result -/

end SmithsNet.Txn
