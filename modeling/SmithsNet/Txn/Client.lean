import SmithsNet.Txn.ClientInvite
import SmithsNet.Txn.ClientNonInvite

/-!
# SmithsNet.Txn.Client

What both client machines guarantee over every run.

`ClientStep` says once what one event can do to a client machine: which states
it may move between, when it reports its end, when it hands a final response
up, which timers it must leave armed.  Each machine is shown to take only such
steps (`clientInvite_contract`, `clientNonInvite_contract`); the results over
runs (`ClientContract.guarantee`) never look at a machine again.

* **word atoms** — `ClientInviteTxn.onEvent_step` and
  `ClientNonInviteTxn.onEvent_step`, one case per arm of the machine;
* **walkers** — `ClientContract.counts_run` and `ClientContract.guarded_run`,
  the step facts threaded through a run by the rules of `SmithsNet.Lib.Mealy`.
-/

namespace SmithsNet.Txn

open Lib
open Transaction (setReliable state)

/-! ## what one step may do -/

/-- The three timers of a client machine. -/
structure ClientProfile where
  retransmit : TimerId
  timeout : TimerId
  absorb : TimerId

/-- Timers A, B, D. -/
def inviteProfile : ClientProfile := ⟨.A, .B, .D⟩

/-- Timers E, F, K. -/
def nonInviteProfile : ClientProfile := ⟨.E, .F, .K⟩

/-- The machine still waits for a final response. -/
def waiting : TransactionState → Bool
  | .trying | .calling | .proceeding => true
  | _ => false

/-- 1 once the machine has left the waiting states. -/
def settled (s : TransactionState) : Nat := if waiting s then 0 else 1

/-- 1 once the machine has terminated. -/
def ended (s : TransactionState) : Nat := if s = .terminated then 1 else 0

/-- One step of a client machine, from state `s` to `s'` on event `e` with
actions `as`. -/
structure ClientStep (p : ClientProfile) (s s' : TransactionState) (e : TransactionEvent)
    (as : List TransactionAction) : Prop where
  /-- A terminated machine is inert. -/
  inert : s = .terminated → s' = .terminated ∧ as = []
  /-- The end is reported once, by the step that reaches it. -/
  reports : terminations as + ended s = ended s'
  /-- A final is handed up only on the way out of the waiting states. -/
  delivers : finals as + settled s ≤ settled s'
  /-- The timeout timer ends a waiting machine. -/
  timesOut : waiting s = true → e = .timerFired p.timeout → s' = .terminated
  /-- The absorb timer ends a completed machine. -/
  absorbs : s = .completed → e = .timerFired p.absorb → s' = .terminated
  /-- While the machine waits nothing cancels its timeout. -/
  keepsTimeout : waiting s' = true → .cancelTimer p.timeout ∉ as
  /-- Entering Completed ends with arming the absorb timer. -/
  entersAbsorb : waiting s = true → s' = .completed → ∃ bs d, as = bs ++ [.armTimer p.absorb d]
  /-- While the machine absorbs nothing cancels the absorb timer. -/
  keepsAbsorb : s = .completed → .cancelTimer p.absorb ∉ as

open ClientStep

/-- The machine takes client steps only, and `good` names the states it can
be in. -/
structure ClientContract (p : ClientProfile) (τ : Type) [Transaction τ] (good : τ → Prop) :
    Prop where
  states : ∀ t, good t → waiting (state t) = true ∨
    state t = .completed ∨ state t = .terminated
  keeps : ∀ (t : τ) e, good t → good (Transaction.onEvent t e).1
  step : ∀ (t : τ) e, good t → ClientStep p (state t)
    (state (Transaction.onEvent t e).1) e (Transaction.onEvent t e).2

/-- What a step may arm on a reliable transport: the timeout, and the
retransmit timer in answer to its own firing. -/
def ArmsReliably (p : ClientProfile) (e : TransactionEvent) (as : List TransactionAction) : Prop :=
  ∀ id d, .armTimer id d ∈ as →
    id = p.timeout ∨ id = p.retransmit ∧ e = .timerFired p.retransmit

/-! ## the four kinds of step -/

theorem ClientStep.dead (p : ClientProfile) (e : TransactionEvent) :
    ClientStep p .terminated .terminated e [] := by
  constructor <;> simp [terminations, finals, settled, ended, waiting]

variable {p : ClientProfile} {as : List TransactionAction} {e : TransactionEvent}
    {s : TransactionState}

/-- A step that changes nothing but the retransmission schedule: the machine
goes on waiting, or goes on absorbing. -/
theorem ClientStep.stay {s' : TransactionState} (id : TimerId)
    (hs : waiting s = true ∧ waiting s' = true ∧ id = p.timeout ∨
      s = .completed ∧ s' = .completed ∧ id = p.absorb)
    (he : e ≠ .timerFired id) (ht : terminations as = 0) (hf : finals as = 0)
    (hc : .cancelTimer id ∉ as) : ClientStep p s s' e as := by
  obtain ⟨hw, hw', rfl⟩ | ⟨rfl, rfl, rfl⟩ := hs
  · have hne : s ≠ .terminated := by intro h; rw [h] at hw; contradiction
    have hnc : s ≠ .completed := by intro h; rw [h] at hw; contradiction
    have hne' : s' ≠ .terminated := by intro h; rw [h] at hw'; contradiction
    have hnc' : s' ≠ .completed := by intro h; rw [h] at hw'; contradiction
    constructor <;> simp [hne, hnc, hne', hnc', hw, hw', ht, hf, hc, he, settled, ended]
  · constructor <;> simp [ht, hf, hc, he, settled, ended, waiting]

theorem ClientStep.waits
    (hw : waiting s = true) (he : e ≠ .timerFired p.timeout) : ClientStep p s s e [] :=
  stay p.timeout (Or.inl ⟨hw, hw, rfl⟩) he rfl rfl (by simp)

theorem ClientStep.holds
    (he : e ≠ .timerFired p.absorb) : ClientStep p .completed .completed e [] :=
  stay p.absorb (Or.inr ⟨rfl, rfl, rfl⟩) he rfl rfl (by simp)

theorem ClientStep.complete {bs : List TransactionAction} {d : Nat} (hw : waiting s = true)
    (he : e ≠ .timerFired p.timeout) (ht : terminations bs = 0) (hf : finals bs ≤ 1) :
    ClientStep p s .completed e (bs ++ [.armTimer p.absorb d]) := by
  have hne : s ≠ .terminated := by intro h; rw [h] at hw; contradiction
  have hnc : s ≠ .completed := by intro h; rw [h] at hw; contradiction
  have ht' : terminations [.armTimer p.absorb d] = 0 := by simp [terminations]
  have hf' : finals [.armTimer p.absorb d] = 0 := rfl
  constructor <;> simp_all [settled, ended, waiting]

theorem ClientStep.finish (hs : waiting s = true ∨ s = .completed)
    (ht : terminations as = 1) (hf : finals as + settled s ≤ 1)
    (hc : s = .completed → .cancelTimer p.absorb ∉ as) : ClientStep p s .terminated e as := by
  have hne : s ≠ .terminated := by
    intro h; rw [h] at hs; simp [waiting] at hs
  constructor <;> simp_all [ended, settled, waiting]

/-! ## the two machines take client steps only -/

namespace ClientInviteTxn

/-- States the machine can be in. -/
def Good (t : ClientInviteTxn) : Prop :=
  t.state = .calling ∨ t.state = .proceeding ∨ t.state = .completed ∨ t.state = .terminated

/-- Entering Completed on a non-2xx final is a client step, whether it
absorbs or ends at once. -/
theorem enterCompletedNonOk_step (t : ClientInviteTxn) (status : Nat) (bytes : Bytes)
    (hw : waiting t.state = true) :
    ClientStep inviteProfile t.state (t.enterCompletedNonOk status bytes).1.state
      (.responseReceived status bytes) (t.enterCompletedNonOk status bytes).2 := by
  have hf : finals ([.deliverResponseToTu status bytes, .cancelTimer .A, .cancelTimer .B] ++
      ((buildNonOkAck t.invite bytes).map .sendToPeer).toList) ≤ 1 := by
    cases buildNonOkAck t.invite bytes <;> simp [finals] <;> split <;> omega
  have ht : terminations ([.deliverResponseToTu status bytes, .cancelTimer .A, .cancelTimer .B] ++
      ((buildNonOkAck t.invite bytes).map .sendToPeer).toList) = 0 := by
    cases buildNonOkAck t.invite bytes <;> simp [terminations]
  cases hr : t.reliable with
  | false =>
    simp only [enterCompletedNonOk, hr, Bool.false_eq_true, if_false]
    exact complete hw (by simp) ht hf
  | true =>
    simp only [enterCompletedNonOk, hr, if_true]
    refine finish (Or.inl hw) ?_ ?_ ?_
    · rw [terminations_append, ht]; rfl
    · have hs : settled t.state = 0 := by simp [settled, hw]
      have h0 : finals [.terminated] = 0 := rfl
      rw [finals_append, hs, h0]
      exact hf
    · intro h; rw [h] at hw; contradiction

theorem enterTerminatedOn2xx_step (t : ClientInviteTxn) (status : Nat) (bytes : Bytes)
    (hw : waiting t.state = true) :
    ClientStep inviteProfile t.state (t.enterTerminatedOn2xx status bytes).1.state
      (.responseReceived status bytes) (t.enterTerminatedOn2xx status bytes).2 := by
  refine finish (Or.inl hw) ?_ ?_ ?_
  · simp [enterTerminatedOn2xx, terminations]
  · have hs : settled t.state = 0 := by simp [settled, hw]
    rw [hs]
    simp only [enterTerminatedOn2xx, finals]
    split <;> omega
  · intro h; rw [h] at hw; contradiction

theorem onEvent_waiting (t : ClientInviteTxn) (e : TransactionEvent)
    (h : t.state = .calling ∨ t.state = .proceeding) :
    ClientStep inviteProfile t.state (onEvent t e).1.state e (onEvent t e).2 := by
  have hw : waiting t.state = true := by obtain h | h := h <;> rw [h] <;> rfl
  cases e with
  | startClient =>
    obtain h | h := h <;> simp only [onEvent, h]
    · refine stay .B (Or.inl ⟨rfl, rfl, rfl⟩) (by simp) ?_ ?_ ?_ <;>
        cases t.reliable <;> simp [terminations, finals]
    · exact waits rfl (by simp)
  | responseReceived status bytes =>
    have h2 := enterTerminatedOn2xx_step t status bytes hw
    have h3 := enterCompletedNonOk_step t status bytes hw
    obtain h | h := h
    all_goals
      simp only [h] at h2 h3
      simp only [onEvent, h]
      split
      · next hs =>
        try rw [h]
        refine stay .B (Or.inl ⟨rfl, rfl, rfl⟩) (by simp) ?_ ?_ ?_ <;>
          simp [terminations, finals, hs]
      · split
        · exact h2
        · split
          · exact h3
          · rw [h]; exact waits rfl (by simp)
  | timerFired id =>
    cases id with
    | A =>
      obtain h | h := h <;> simp only [onEvent, h]
      · refine stay .B (Or.inl ⟨rfl, rfl, rfl⟩) (by simp) ?_ ?_ ?_ <;>
          simp [terminations, finals]
      · exact waits rfl (by simp [inviteProfile])
    | B =>
      obtain h | h := h <;> simp only [onEvent, h] <;>
        exact finish (Or.inl rfl) rfl (by decide) (by simp)
    | _ =>
      obtain h | h := h <;> simp only [onEvent, h] <;> exact waits rfl (by simp [inviteProfile])
  | _ => obtain h | h := h <;> simp only [onEvent, h] <;> exact waits rfl (by simp)

theorem onEvent_step (t : ClientInviteTxn) (e : TransactionEvent) (h : Good t) :
    ClientStep inviteProfile t.state (onEvent t e).1.state e (onEvent t e).2 := by
  obtain h | h | h | h := h
  · exact onEvent_waiting t e (.inl h)
  · exact onEvent_waiting t e (.inr h)
  · cases e with
    | responseReceived status bytes =>
      simp only [onEvent, h]
      split
      · cases t.ackForNonOk <;> simp only [h]
        · exact holds (by simp)
        · exact stay .D (Or.inr ⟨rfl, rfl, rfl⟩) (by simp) rfl rfl (by simp)
      · rw [h]; exact holds (by simp)
    | timerFired id =>
      cases id with
      | D =>
        simp only [onEvent, h]
        exact finish (Or.inr rfl) rfl (by decide) (by simp)
      | _ => simp only [onEvent, h]; exact holds (by simp [inviteProfile])
    | _ => simp only [onEvent, h]; exact holds (by simp)
  · simp only [onEvent, h]; exact dead _ _

theorem onEvent_good (t : ClientInviteTxn) (e : TransactionEvent) (h : Good t) :
    Good (onEvent t e).1 := by
  unfold Good at h ⊢
  fun_cases onEvent t e <;>
    cases hr : t.reliable <;> simp_all [enterCompletedNonOk, enterTerminatedOn2xx]

/-- A reliable machine arms timer B only, and timer A again when A fires. -/
theorem onEvent_reliable (t : ClientInviteTxn) (e : TransactionEvent) (hr : t.reliable = true) :
    (onEvent t e).1.reliable = true ∧ ArmsReliably inviteProfile e (onEvent t e).2 := by
  unfold ArmsReliably
  fun_cases onEvent t e <;> simp_all [enterCompletedNonOk, enterTerminatedOn2xx, inviteProfile]

end ClientInviteTxn

namespace ClientNonInviteTxn

/-- States the machine can be in. -/
def Good (t : ClientNonInviteTxn) : Prop :=
  t.state = .trying ∨ t.state = .proceeding ∨ t.state = .completed ∨ t.state = .terminated

/-- Entering Completed is a client step, whether it absorbs or ends at once. -/
theorem enterCompleted_step (t : ClientNonInviteTxn) (status : Nat) (bytes : Bytes)
    (hw : waiting t.state = true) :
    ClientStep nonInviteProfile t.state (t.enterCompleted bytes status).1.state
      (.responseReceived status bytes) (t.enterCompleted bytes status).2 := by
  have hf : finals [.deliverResponseToTu status bytes, .cancelTimer .E, .cancelTimer .F] ≤ 1 := by
    simp only [finals]
    split <;> omega
  cases hr : t.reliable with
  | false =>
    simp only [enterCompleted, hr, Bool.false_eq_true, if_false]
    exact complete (p := nonInviteProfile) hw (by simp) rfl hf
  | true =>
    simp only [enterCompleted, hr, if_true]
    refine finish (Or.inl hw) rfl ?_ ?_
    · have hs : settled t.state = 0 := by simp [settled, hw]
      rw [hs]
      exact hf
    · intro h; rw [h] at hw; contradiction

theorem onEvent_waiting (t : ClientNonInviteTxn) (e : TransactionEvent)
    (h : t.state = .trying ∨ t.state = .proceeding) :
    ClientStep nonInviteProfile t.state (onEvent t e).1.state e (onEvent t e).2 := by
  have hw : waiting t.state = true := by obtain h | h := h <;> rw [h] <;> rfl
  cases e with
  | startClient =>
    obtain h | h := h <;> simp only [onEvent, h]
    · refine stay .F (Or.inl ⟨rfl, rfl, rfl⟩) (by simp) ?_ ?_ ?_ <;>
        cases t.reliable <;> simp [terminations, finals]
    · exact waits rfl (by simp)
  | responseReceived status bytes =>
    have h2 := enterCompleted_step t status bytes hw
    obtain h | h := h
    all_goals
      simp only [h] at h2
      simp only [onEvent, h]
      split
      · next hs =>
        try rw [h]
        refine stay .F (Or.inl ⟨rfl, rfl, rfl⟩) (by simp) ?_ ?_ ?_ <;>
          cases t.reliable <;> simp [terminations, finals, hs]
      · split
        · exact h2
        · rw [h]; exact waits rfl (by simp)
  | timerFired id =>
    cases id with
    | E =>
      obtain h | h := h <;> simp only [onEvent, h] <;>
        exact stay .F (Or.inl ⟨rfl, rfl, rfl⟩) (by simp) rfl rfl (by simp)
    | F =>
      obtain h | h := h <;> simp only [onEvent, h] <;>
        exact finish (Or.inl rfl) rfl (by decide) (by simp)
    | _ =>
      obtain h | h := h <;> simp only [onEvent, h] <;>
        exact waits rfl (by simp [nonInviteProfile])
  | _ => obtain h | h := h <;> simp only [onEvent, h] <;> exact waits rfl (by simp)

theorem onEvent_step (t : ClientNonInviteTxn) (e : TransactionEvent) (h : Good t) :
    ClientStep nonInviteProfile t.state (onEvent t e).1.state e (onEvent t e).2 := by
  obtain h | h | h | h := h
  · exact onEvent_waiting t e (.inl h)
  · exact onEvent_waiting t e (.inr h)
  · cases e with
    | timerFired id =>
      cases id with
      | K =>
        simp only [onEvent, h]
        exact finish (Or.inr rfl) rfl (by decide) (by simp)
      | _ => simp only [onEvent, h]; exact holds (by simp [nonInviteProfile])
    | _ => simp only [onEvent, h]; exact holds (by simp)
  · simp only [onEvent, h]; exact dead _ _

theorem onEvent_good (t : ClientNonInviteTxn) (e : TransactionEvent) (h : Good t) :
    Good (onEvent t e).1 := by
  unfold Good at h ⊢
  fun_cases onEvent t e <;> cases hr : t.reliable <;> simp_all [enterCompleted]

/-- A reliable machine arms timer F only, and timer E again when E fires. -/
theorem onEvent_reliable (t : ClientNonInviteTxn) (e : TransactionEvent) (hr : t.reliable = true) :
    (onEvent t e).1.reliable = true ∧ ArmsReliably nonInviteProfile e (onEvent t e).2 := by
  unfold ArmsReliably
  fun_cases onEvent t e <;> simp_all [enterCompleted, nonInviteProfile]

end ClientNonInviteTxn

theorem clientInvite_contract :
    ClientContract inviteProfile ClientInviteTxn ClientInviteTxn.Good where
  states t h := by
    obtain h | h | h | h := h <;> simp [state, h, waiting]
  keeps t e h := t.onEvent_good e h
  step t e h := t.onEvent_step e h

theorem clientNonInvite_contract :
    ClientContract nonInviteProfile ClientNonInviteTxn ClientNonInviteTxn.Good where
  states t h := by
    obtain h | h | h | h := h <;> simp [state, h, waiting]
  keeps t e h := t.onEvent_good e h
  step t e h := t.onEvent_step e h

/-! ## whole runs -/

/-- A machine fed `startClient` and then `evs`, seen from outside. -/
structure ClientGuarantee (p : ClientProfile) {τ : Type} [Transaction τ] (t : τ)
    (evs : List TransactionEvent) : Prop where
  /-- At most one final response reaches the Transaction User. -/
  oneFinal : finals (emitted t (.startClient :: evs)) ≤ 1
  /-- The end has been reported exactly once if it was reached, else never. -/
  reported : terminations (emitted t (.startClient :: evs)) =
    ended (state (after t (.startClient :: evs)))
  /-- The next event reports the end exactly when it is the one that enters
  Terminated. -/
  reportsOnEntry : ∀ e, state (after t (.startClient :: evs)) ≠ .terminated →
    terminations (Transaction.onEvent (after t (.startClient :: evs)) e).2 =
      ended (state (Transaction.onEvent (after t (.startClient :: evs)) e).1)
  /-- After the end every event yields nothing. -/
  silent : ∀ e, state (after t (.startClient :: evs)) = .terminated →
    (Transaction.onEvent (after t (.startClient :: evs)) e).2 = []
  /-- Before the end some armed timer ends the machine when it fires. -/
  neverStuck : state (after t (.startClient :: evs)) ≠ .terminated →
    ∃ id, (id = p.timeout ∨ id = p.absorb) ∧ armed t (.startClient :: evs) id = true ∧
      state (Transaction.onEvent (after t (.startClient :: evs))
        (.timerFired id)).1 = .terminated

namespace ClientContract

variable {p : ClientProfile} {τ : Type} [Transaction τ] {good : τ → Prop}

/-- The timer that ends the machine is armed. -/
def Guarded (p : ClientProfile) (t : τ) (b : TimerId → Bool) : Prop :=
  (waiting (state t) = true → b p.timeout = true) ∧
    (state t = .completed → b p.absorb = true)

section

variable (hc : ClientContract p τ good) (t : τ)
include hc

theorem guarded_step (b : TimerId → Bool) (e : TransactionEvent) (hg : good t) (h : Guarded p t b) :
    Guarded p (Transaction.onEvent t e).1 (armStep b e (Transaction.onEvent t e).2) := by
  have hstep := hc.step t e hg
  constructor
  · intro hw'
    have hne : state (Transaction.onEvent t e).1 ≠ .terminated := by
      intro he; rw [he] at hw'; contradiction
    have hw : waiting (state t) = true := by
      have hd := hstep.delivers
      simp only [settled, hw', if_true] at hd
      by_contra hn
      simp [hn] at hd
    exact armStep_of_kept (h.1 hw) (fun he => hne (hstep.timesOut hw he))
      (hstep.keepsTimeout hw')
  · intro hc'
    obtain hw | hcomp | hterm := hc.states t hg
    · obtain ⟨bs, d, hbs⟩ := hstep.entersAbsorb hw hc'
      rw [hbs]
      exact armStep_of_arms_last b e bs p.absorb d
    · have hne : e ≠ .timerFired p.absorb := by
        intro he
        have := hstep.absorbs hcomp he
        rw [this] at hc'
        contradiction
      exact armStep_of_kept (h.2 hcomp) hne (hstep.keepsAbsorb hcomp)
    · have := (hstep.inert hterm).1
      rw [this] at hc'
      contradiction

theorem guarded_run (b : TimerId → Bool) (hg : good t)
    (h : Guarded p t b) (evs : List TransactionEvent) :
    good (after t evs) ∧ Guarded p (after t evs) ((machine τ).monitor armStep t b evs) := by
  refine (machine τ).monitor_invariant armStep (P := fun t b => good t ∧ Guarded p t b) ?_
    ⟨hg, h⟩ evs
  intro t b e ht
  exact ⟨hc.keeps t e ht.1, guarded_step hc t b e ht.1 ht.2⟩

/-- Along every run the finals handed up and the ends reported are bounded by
the state. -/
theorem counts_run (hg : good t) (evs : List TransactionEvent) :
    finals (emitted t evs) + settled (state t) ≤
        settled (state (after t evs)) ∧
      terminations (emitted t evs) + ended (state t) =
        ended (state (after t evs)) := by
  have hrun := (machine τ).monitor_invariant (fun b _ as => b ++ as)
    (P := fun t' b => good t' ∧
      finals b + settled (state t) ≤ settled (state t') ∧
      terminations b + ended (state t) = ended (state t'))
    (s := t) (b := []) ?_ ⟨hg, by simp [finals], by simp [terminations]⟩ evs
  · rw [Mealy.monitor_collect] at hrun
    exact hrun.2
  · rintro t' b e ⟨hg', hf, ht⟩
    have hstep := hc.step t' e hg'
    have hd := hstep.delivers
    have hr := hstep.reports
    refine ⟨hc.keeps t' e hg', ?_, ?_⟩
    · rw [finals_append]
      simp only [machine] at hd ⊢
      omega
    · rw [terminations_append]
      simp only [machine] at hr ⊢
      omega

/-- A machine that keeps the contract and starts with its timeout armed keeps
the guarantee over every run. -/
theorem guarantee (hg : good t) (hw : waiting (state t) = true)
    (hstart : armStep (fun _ => false) .startClient (Transaction.onEvent t .startClient).2
      p.timeout = true)
    (hw' : waiting (state (Transaction.onEvent t .startClient).1) = true)
    (evs : List TransactionEvent) : ClientGuarantee p t evs := by
  have hs : settled (state t) = 0 := by simp [settled, hw]
  have he : ended (state t) = 0 := by
    have hne : state t ≠ .terminated := by intro h; rw [h] at hw; contradiction
    simp [ended, hne]
  obtain ⟨hfin, hterm⟩ := counts_run hc t hg (.startClient :: evs)
  rw [hs] at hfin
  rw [he] at hterm
  -- after `startClient` the machine waits with its timeout armed
  have hguard : Guarded p (Transaction.onEvent t .startClient).1
      (armStep (fun _ => false) .startClient (Transaction.onEvent t .startClient).2) := by
    refine ⟨fun _ => hstart, fun h => ?_⟩
    rw [h] at hw'
    contradiction
  obtain ⟨hgood, harm⟩ := guarded_run hc _ _ (hc.keeps t .startClient hg) hguard evs
  refine ⟨?_, by simpa using hterm, ?_, ?_, ?_⟩
  · have hle : settled (state (after t (.startClient :: evs))) ≤ 1 := by
      simp only [settled]; split <;> omega
    omega
  · intro e hne
    have hr := (hc.step (after t (.startClient :: evs)) e hgood).reports
    have h0 : ended (state (after t (.startClient :: evs))) = 0 := by
      simp [ended, hne]
    rw [h0, Nat.add_zero] at hr
    exact hr
  · intro e hend
    exact ((hc.step _ e hgood).inert hend).2
  · intro hne
    obtain hwait | hcomp | hdone := hc.states _ hgood
    · exact ⟨p.timeout, Or.inl rfl, harm.1 hwait, (hc.step _ _ hgood).timesOut hwait rfl⟩
    · exact ⟨p.absorb, Or.inr rfl, harm.2 hcomp, (hc.step _ _ hgood).absorbs hcomp rfl⟩
    · exact absurd hdone hne

end

end ClientContract

/-- What a reliable machine fed `startClient` and then `evs` never arms. -/
structure ReliableGuarantee (p : ClientProfile) {τ : Type} [Transaction τ] (t : τ)
    (evs : List TransactionEvent) : Prop where
  /-- There is no wait in Completed. -/
  noWait : ∀ d, .armTimer p.absorb d ∉ emitted t (.startClient :: evs)
  /-- Nothing is retransmitted, as long as timers fire only after having been
  armed. -/
  noRetransmit : FiresOnlyArmed t (.startClient :: evs) →
    ∀ d, .armTimer p.retransmit d ∉ emitted t (.startClient :: evs)

section Reliable

variable {p : ClientProfile} {τ : Type} [Transaction τ] {R : τ → Prop}

/-- A run of reliable steps arms the timeout and the retransmit timer at most. -/
theorem arms_timeout_or_retransmit (hstep : ∀ (t : τ) e, R t → R (Transaction.onEvent t e).1 ∧
      ArmsReliably p e (Transaction.onEvent t e).2) (t : τ) (ht : R t)
    (evs : List TransactionEvent) :
    ∀ id d, .armTimer id d ∈ emitted t evs → id = p.timeout ∨ id = p.retransmit := by
  have hrun := (machine τ).forall_mem_outputs
    (Q := fun a => ∀ id d, a = .armTimer id d → id = p.timeout ∨ id = p.retransmit) ?_ ht evs
  · exact fun id d hmem => hrun _ hmem id d rfl
  · intro t e hr
    obtain ⟨hr', has⟩ := hstep t e hr
    refine ⟨hr', fun a ha id d hid => ?_⟩
    rw [hid] at ha
    obtain hto | ⟨hre, -⟩ := has id d ha
    · exact Or.inl hto
    · exact Or.inr hre

/-- When timers fire only after having been armed, a run of reliable steps
arms the timeout alone: the retransmit timer is armed only when it fires, so
it never gets to fire. -/
theorem arms_timeout_only (hp : p.retransmit ≠ p.timeout)
    (hstep : ∀ (t : τ) e, R t → R (Transaction.onEvent t e).1 ∧
      ArmsReliably p e (Transaction.onEvent t e).2) (t : τ) (ht : R t)
    (evs : List TransactionEvent) (hfire : FiresOnlyArmed t evs) :
    ∀ id d, .armTimer id d ∈ emitted t evs → id = p.timeout := by
  have hrun := (machine τ).monitor_invariant_of_admissible (fun b _ as => b ++ as)
    (P := fun t b => R t ∧ ∀ id d, .armTimer id d ∈ b → id = p.timeout) ?_
    ⟨ht, by simp⟩ evs hfire
  · rw [Mealy.monitor_collect] at hrun
    exact hrun.2
  · intro t b e ⟨hr, hb⟩ hg
    obtain ⟨hr', has⟩ := hstep t e hr
    refine ⟨hr', fun id d hmem => ?_⟩
    rw [List.mem_append] at hmem
    cases hmem with
    | inl h => exact hb id d h
    | inr h =>
      obtain hto | ⟨-, hfired⟩ := has id d h
      · exact hto
      · obtain ⟨d', hd'⟩ := hg p.retransmit hfired
        exact absurd (hb _ d' hd') hp

/-- A machine of reliable steps keeps the reliable guarantee over every run. -/
theorem reliableGuarantee (hp : p.retransmit ≠ p.timeout) (habs : p.absorb ≠ p.timeout)
    (hne : p.absorb ≠ p.retransmit) (hstep : ∀ (t : τ) e, R t → R (Transaction.onEvent t e).1 ∧
      ArmsReliably p e (Transaction.onEvent t e).2) (t : τ) (ht : R t)
    (evs : List TransactionEvent) : ReliableGuarantee p t evs := by
  constructor
  · intro d hmem
    obtain h | h := arms_timeout_or_retransmit hstep t ht _ _ d hmem
    · exact habs h
    · exact hne h
  · intro hfire d hmem
    exact hp (arms_timeout_only hp hstep t ht _ hfire _ d hmem)

end Reliable

/-- **Client transactions settle**: for every run after `startClient`, on
either kind of transport, both client machines hand up at most one final,
report their end once and in the step that reaches it, stay silent afterwards,
and are never without an armed timer that ends them; on a reliable transport
neither absorb timer is ever armed, nor is a retransmit timer when timers fire
only after having been armed. -/
theorem client_transactions_settle (branch method : String) (request : Bytes) (reliable : Bool)
    (evs : List TransactionEvent) : ClientGuarantee inviteProfile
        (setReliable (ClientInviteTxn.new branch request) reliable) evs ∧
      ClientGuarantee nonInviteProfile
        (setReliable (ClientNonInviteTxn.new branch method request) reliable) evs ∧
      (reliable = true →
        ReliableGuarantee inviteProfile
          (setReliable (ClientInviteTxn.new branch request) reliable) evs ∧
        ReliableGuarantee nonInviteProfile
          (setReliable (ClientNonInviteTxn.new branch method request) reliable)
          evs) := by
  refine ⟨?_, ?_, fun hr => ⟨?_, ?_⟩⟩
  · refine clientInvite_contract.guarantee _ (Or.inl rfl) rfl ?_ rfl evs
    cases reliable <;> rfl
  · refine clientNonInvite_contract.guarantee _ (Or.inl rfl) rfl ?_ rfl evs
    cases reliable <;> rfl
  · exact reliableGuarantee (R := fun t => t.reliable = true) (by decide) (by decide) (by decide)
      (fun t e hrel => ClientInviteTxn.onEvent_reliable t e hrel) _ hr evs
  · exact reliableGuarantee (R := fun t => t.reliable = true) (by decide) (by decide) (by decide)
      (fun t e hrel => ClientNonInviteTxn.onEvent_reliable t e hrel) _ hr evs

/-- A reliable INVITE that runs into its timeout: only B fires, and it was
armed. -/
theorem client_transactions_settle_timeout :
    FiresOnlyArmed (setReliable (ClientInviteTxn.new "z9hG4bK-1" []) true)
        [.startClient, .timerFired .B] ∧
      (∀ d, .armTimer .A d ∉ emitted
        (setReliable (ClientInviteTxn.new "z9hG4bK-1" []) true)
        [.startClient, .timerFired .B]) ∧
      ∀ d, .armTimer .D d ∉ emitted
        (setReliable (ClientInviteTxn.new "z9hG4bK-1" []) true)
        [.startClient, .timerFired .B] := by
  have hfire : FiresOnlyArmed (setReliable (ClientInviteTxn.new "z9hG4bK-1" []) true)
      [.startClient, .timerFired .B] := by
    refine ⟨by simp, ?_, trivial⟩
    intro id hid
    simp only [TransactionEvent.timerFired.injEq] at hid
    subst hid
    exact ⟨TIMEOUT_64T1, by decide⟩
  obtain ⟨hwait, hretransmit⟩ :=
    ((client_transactions_settle "z9hG4bK-1" "BYE" [] true [.timerFired .B]).2.2 rfl).1
  exact ⟨hfire, hretransmit hfire, hwait⟩

/-- Fed a timer A that was never armed, the reliable INVITE machine arms it:
the machine trusts the driver to fire armed timers only. -/
theorem reliable_invite_rearms_stray_timer :
    ¬ ∀ (branch : String) (request : Bytes) (evs : List TransactionEvent) (id : TimerId) (d : Nat),
      .armTimer id d ∈ emitted (setReliable (ClientInviteTxn.new branch request) true)
        (.startClient :: evs) → id ≠ .A ∧ id ≠ .D := by
  intro h
  exact (h "z9hG4bK-1" [] [.timerFired .A] .A 1000 (by decide)).1 rfl

end SmithsNet.Txn
