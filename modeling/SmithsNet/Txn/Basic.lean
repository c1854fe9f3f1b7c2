import SmithsNet.Lib.Mealy
import SmithsNet.Lib.Text

/-!
# SmithsNet.Txn.Basic

The vocabulary every transaction state machine of the SIP engine shares
(`smiths-sip/src/txn/mod.rs`, RFC 3261 §17): states, timers, events, actions,
and the `Transaction` interface.  A machine is a pure function from one event
to a list of actions; the driver executes the actions.

The second half is the observer's side: what the driver's timer table holds
after a run (`armed`), and which of the emitted actions the Transaction User
or the peer can see.  All of it is computed from events and actions alone.
-/

namespace SmithsNet.Txn

open Lib

/-! ## the shared types -/

/-- Canonical transaction state, collapsed across the four flavours. -/
inductive TransactionState
  | trying
  | calling
  | proceeding
  | completed
  | confirmed
  | terminated
  deriving DecidableEq

/-- Which side of the hop-to-hop exchange a machine runs. -/
inductive Role
  | client
  | server
  deriving DecidableEq

/-- Lookup key of the driver's transaction table. -/
structure TransactionKey where
  branch : String
  method : String
  role : Role
  deriving DecidableEq

/-- The RFC 3261 timers. -/
inductive TimerId
  | A | B | C | D | E | F | G | H | I | J | K
  deriving DecidableEq

/-- What the outside world tells a machine.  `timerFired` is documented as "a
timer the FSM previously armed has fired". -/
inductive TransactionEvent
  | startClient
  | responseReceived (status : Nat) (bytes : Bytes)
  | requestReceived (method : String) (bytes : Bytes)
  | sendResponseFromTu (status : Nat) (bytes : Bytes)
  | timerFired (id : TimerId)
  deriving DecidableEq

/-- What a machine asks the driver to do.  Intervals are in milliseconds. -/
inductive TransactionAction
  | sendToPeer (bytes : Bytes)
  | deliverResponseToTu (status : Nat) (bytes : Bytes)
  | armTimer (id : TimerId) (after : Nat)
  | cancelTimer (id : TimerId)
  | terminated
  deriving DecidableEq

/-- The interface every machine implements. -/
class Transaction (τ : Type) where
  key : τ → TransactionKey
  state : τ → TransactionState
  setReliable : τ → Bool → τ
  onEvent : τ → TransactionEvent → τ × List TransactionAction

/-! ## timer constants (`txn/timers.rs`) -/

/-- Estimated round-trip time. -/
def T1 : Nat := 500

/-- Cap on the non-INVITE retransmit interval. -/
def T2 : Nat := 4000

/-- How long a duplicate may still arrive. -/
def T4 : Nat := 5000

/-- `64 * T1`. -/
def TIMEOUT_64T1 : Nat := 32000

/-- `min (T1 * 2 ^ attempt) max`; the shift count is capped at 16, so the
multiplication cannot overflow. -/
def doublingBackoff (attempt max : Nat) : Nat := min (T1 * 2 ^ min attempt 16) max

/-- `u32::saturating_add(1)` on an attempt counter. -/
def nextAttempt (attempt : Nat) : Nat := min (attempt + 1) (2 ^ 32 - 1)

/-! ## runs of a machine -/

section Runs

variable {τ : Type} [Transaction τ]

/-- The machine as a step function. -/
def machine (τ : Type) [Transaction τ] : Mealy τ TransactionEvent TransactionAction :=
  Transaction.onEvent

/-- The machine after a list of events. -/
def after (t : τ) (evs : List TransactionEvent) : τ := (machine τ).stateAfter t evs

/-- Every action emitted along a list of events. -/
def emitted (t : τ) (evs : List TransactionEvent) : List TransactionAction :=
  (machine τ).outputs t evs

end Runs

/-! ## the driver's timer table -/

/-- One action's effect on the set of armed timers. -/
def armAction (armed : TimerId → Bool) : TransactionAction → TimerId → Bool
  | .armTimer id _ => fun i => i == id || armed i
  | .cancelTimer id => fun i => i != id && armed i
  | _ => armed

/-- A timer that fires is no longer armed when its actions run. -/
def fireEvent (armed : TimerId → Bool) : TransactionEvent → TimerId → Bool
  | .timerFired id => fun i => i != id && armed i
  | _ => armed

/-- Timers armed after one event and its actions. -/
def armStep (armed : TimerId → Bool) (e : TransactionEvent) (as : List TransactionAction) :
    TimerId → Bool :=
  as.foldl armAction (fireEvent armed e)

/-- Timers armed after a run from a fresh entry: the fold of the emitted
`armTimer` / `cancelTimer` actions and of the fired timers. -/
def armed {τ : Type} [Transaction τ] (t : τ) (evs : List TransactionEvent) : TimerId → Bool :=
  (machine τ).monitor armStep t (fun _ => false) evs

/-- Every timer that fires along the run was armed by an earlier action. -/
def FiresOnlyArmed {τ : Type} [Transaction τ] (t : τ) (evs : List TransactionEvent) : Prop :=
  (machine τ).Admissible (fun b _ as => b ++ as)
    (fun _ sofar e => ∀ id, e = .timerFired id → ∃ d, .armTimer id d ∈ sofar) t [] evs

/-! ## what the Transaction User and the peer see -/

/-- The bytes written to the peer, in order. -/
def sends : List TransactionAction → List Bytes
  | [] => []
  | .sendToPeer b :: as => b :: sends as
  | _ :: as => sends as

/-- How many final responses (status 200 and up) are delivered upward. -/
def finals : List TransactionAction → Nat
  | [] => 0
  | .deliverResponseToTu status _ :: as => (if 200 ≤ status then 1 else 0) + finals as
  | _ :: as => finals as

/-- How many times the machine reports its end. -/
def terminations (as : List TransactionAction) : Nat := as.count .terminated

section

variable (as bs : List TransactionAction)

@[simp] theorem sends_append : sends (as ++ bs) = sends as ++ sends bs := by
  induction as with
  | nil => rfl
  | cons a as ih => cases a <;> simp [sends, ih]

@[simp] theorem finals_append : finals (as ++ bs) = finals as + finals bs := by
  induction as with
  | nil => simp [finals]
  | cons a as ih => cases a <;> simp [finals, ih, Nat.add_assoc]

@[simp] theorem terminations_append :
    terminations (as ++ bs) = terminations as + terminations bs := by
  simp [terminations]

end

/-- A timer armed before a batch of actions that never cancels it stays armed. -/
theorem foldl_armAction_of_not_cancel {as : List TransactionAction} {id : TimerId}
    (hc : .cancelTimer id ∉ as) {b : TimerId → Bool} (h : b id = true) :
    as.foldl armAction b id = true := by
  induction as generalizing b with
  | nil => exact h
  | cons a as ih =>
    simp only [List.mem_cons, not_or] at hc
    refine ih hc.2 ?_
    cases a with
    | cancelTimer i =>
      have hne : id ≠ i := fun he => hc.1 (by rw [he])
      simp [armAction, h, hne]
    | armTimer i d => simp [armAction, h]
    | _ => exact h

/-- An armed timer survives an event that neither fires nor cancels it. -/
theorem armStep_of_kept {b : TimerId → Bool} {e : TransactionEvent}
    {as : List TransactionAction} {id : TimerId} (h : b id = true)
    (hf : e ≠ .timerFired id) (hc : .cancelTimer id ∉ as) : armStep b e as id = true := by
  refine foldl_armAction_of_not_cancel hc ?_
  cases e with
  | timerFired i =>
    have hne : id ≠ i := fun he => hf (by rw [he])
    simp [fireEvent, h, hne]
  | _ => exact h

theorem armStep_of_arms_last (b : TimerId → Bool) (e : TransactionEvent)
    (as : List TransactionAction) (id : TimerId) (d : Nat) :
    armStep b e (as ++ [.armTimer id d]) id = true := by
  simp [armStep, armAction]

end SmithsNet.Txn
