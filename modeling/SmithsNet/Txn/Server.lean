import SmithsNet.Txn.ServerInvite
import SmithsNet.Txn.ServerNonInvite

/-!
# SmithsNet.Txn.Server

What both server machines guarantee over every run.

`ServerStep` lists the moves a server machine can make: answer with a
provisional, answer with a final (and absorb, or end at once), replay the
cached response, take the ACK, run into its timer, or ignore the event.  Each
machine is shown to make only such moves; the results over runs
(`ServerContract.guarantee`) are proved once, from the moves.

The peer's view is the observer `Observed`: the responses put on the wire with
the status of the answer they carry, the last answer of the Transaction User
that was sent, and whether an ACK came after a final.
-/

namespace SmithsNet.Txn

open Lib
open Transaction (setReliable state)

/-! ## the peer's view of a run -/

/-- What sets the two server machines apart for an observer. -/
structure ServerProfile where
  /-- Methods the machine treats as a retransmission of its request. -/
  retransmit : String → Bool
  /-- Methods that acknowledge a final. -/
  acknowledge : String → Bool
  /-- The timer that ends Completed. -/
  waitTimer : TimerId
  /-- The timer that ends Confirmed. -/
  absorbTimer : TimerId
  /-- An ACK is no retransmission. -/
  ack_not_retransmit : ∀ m, acknowledge m = true → retransmit m = false

open ServerProfile

/-- INVITE: only an INVITE is a retransmission; timers H and I. -/
def inviteServer : ServerProfile where
  retransmit m := m == "INVITE"
  acknowledge m := m == "ACK"
  waitTimer := .H
  absorbTimer := .I
  ack_not_retransmit := by intro m h; rw [eq_of_beq h]; decide

/-- Non-INVITE: the driver routes only the same request here; timer J. -/
def nonInviteServer : ServerProfile where
  retransmit _ := true
  acknowledge _ := false
  waitTimer := .J
  absorbTimer := .J
  ack_not_retransmit := by simp

/-- The event is a retransmitted request. -/
def ServerProfile.isRetransmit (p : ServerProfile) : TransactionEvent → Bool
  | .requestReceived method _ => p.retransmit method
  | _ => false

/-- The event is an ACK. -/
def ServerProfile.isAck (p : ServerProfile) : TransactionEvent → Bool
  | .requestReceived method _ => p.acknowledge method
  | _ => false

theorem ServerProfile.isRetransmit_of_isAck (p : ServerProfile) {e : TransactionEvent}
    (h : p.isAck e = true) : p.isRetransmit e = false := by
  cases e with
  | requestReceived method bytes => exact p.ack_not_retransmit method h
  | _ => rfl

/-- The peer's view so far. -/
structure Observed where
  /-- The Transaction User's last response that was put on the wire. -/
  lastSent : Option (Nat × Bytes)
  /-- Every response put on the wire, with the status of the answer. -/
  wire : List (Nat × Bytes)
  /-- An ACK was received after a final was sent. -/
  acked : Bool

/-- Nothing seen yet. -/
def Observed.start : Observed := ⟨none, [], false⟩

/-- The status a send of this event carries: the answer's own when the
Transaction User answers, else that of the last answer sent. -/
def Observed.label (o : Observed) : TransactionEvent → Nat
  | .sendResponseFromTu status _ => status
  | _ => (o.lastSent.map Prod.fst).getD 0

/-- One event seen together with its actions. -/
def observe (p : ServerProfile) (o : Observed) (e : TransactionEvent)
    (as : List TransactionAction) : Observed where
  lastSent := match e with
    | .sendResponseFromTu status bytes => if sends as = [] then o.lastSent else some (status, bytes)
    | _ => o.lastSent
  wire := o.wire ++ (sends as).map fun bytes => (o.label e, bytes)
  acked := o.acked || (p.isAck e && decide (200 ≤ (o.lastSent.map Prod.fst).getD 0))

/-- The peer's view of a run. -/
def observed {τ : Type} [Transaction τ] (p : ServerProfile) (t : τ) (evs : List TransactionEvent) :
    Observed :=
  (machine τ).monitor (observe p) t .start evs

/-- Two responses, in wire order: after a final only that very final. -/
def Agrees (x y : Nat × Bytes) : Prop := 200 ≤ x.1 → 200 ≤ y.1 ∧ y.2 = x.2

/-! ## what one step may do -/

/-- Nothing sent, nothing reported. -/
def Quiet (as : List TransactionAction) : Prop := sends as = [] ∧ .terminated ∉ as

/-- The Transaction User has not answered with a final yet. -/
def openState (s : TransactionState) : Prop := s = .trying ∨ s = .proceeding

/-- The moves of a server machine, from state `s` with cached response `c` to
`s'` with `c'`. -/
inductive ServerStep (p : ServerProfile) : TransactionState → Option Bytes → TransactionEvent →
    TransactionState → Option Bytes → List TransactionAction → Prop
  | provisional {s c status bytes} (hs : openState s) (h : status < 200) :
      ServerStep p s c (.sendResponseFromTu status bytes) .proceeding (some bytes)
        [.sendToPeer bytes]
  | final {s c status bytes as d} (hs : openState s) (h : 200 ≤ status) (hq : Quiet as) :
      ServerStep p s c (.sendResponseFromTu status bytes) .completed (some bytes)
        (.sendToPeer bytes :: as ++ ([.armTimer p.waitTimer d] : List TransactionAction))
  | finalEnds {s c c' status bytes} (hs : openState s) (h : 200 ≤ status) :
      ServerStep p s c (.sendResponseFromTu status bytes) .terminated c'
        [.sendToPeer bytes, .terminated]
  | replay {s e last} (hs : s = .proceeding ∨ s = .completed) (hr : p.isRetransmit e = true) :
      ServerStep p s (some last) e s (some last) [.sendToPeer last]
  | resend {id last as} (h : id ≠ p.waitTimer) (hq : Quiet as)
      (hc : .cancelTimer p.waitTimer ∉ as) :
      ServerStep p .completed (some last) (.timerFired id) .completed (some last)
        (.sendToPeer last :: as)
  | ack {c e as d} (ha : p.isAck e = true) (hq : Quiet as) :
      ServerStep p .completed c e .confirmed c
        (as ++ ([.armTimer p.absorbTimer d] : List TransactionAction))
  | ackEnds {c e as} (ha : p.isAck e = true) (hq : Quiet as) :
      ServerStep p .completed c e .terminated c
        (as ++ ([.terminated] : List TransactionAction))
  | timeout {c as} (hq : Quiet as) :
      ServerStep p .completed c (.timerFired p.waitTimer) .terminated c
        (as ++ ([.terminated] : List TransactionAction))
  | absorbed {c} :
      ServerStep p .confirmed c (.timerFired p.absorbTimer) .terminated c [.terminated]
  | ignore {s c e} (hs : s ≠ .calling)
      (hr : p.isRetransmit e = true → s = .proceeding ∨ s = .completed → c = none)
      (ha : p.isAck e = true → s ≠ .completed)
      (hw : s = .completed → e ≠ .timerFired p.waitTimer)
      (hi : s = .confirmed → e ≠ .timerFired p.absorbTimer) :
      ServerStep p s c e s c []

/-- The machine makes server moves only; `cache` is its cached response. -/
structure ServerContract (p : ServerProfile) (τ : Type) [Transaction τ] (cache : τ → Option Bytes)
    (good : τ → Prop) : Prop where
  keeps : ∀ (t : τ) e, good t → good (Transaction.onEvent t e).1
  step : ∀ (t : τ) e, good t → ServerStep p (state t) (cache t) e
    (state (Transaction.onEvent t e).1) (cache (Transaction.onEvent t e).1)
    (Transaction.onEvent t e).2

/-! ## the two machines make server moves only -/

namespace ServerInviteTxn

/-- States the machine can be in; in Completed the final is cached. -/
def Good (t : ServerInviteTxn) : Prop :=
  t.state = .proceeding ∨ (t.state = .completed ∧ t.lastResponse ≠ none) ∨
    t.state = .confirmed ∨ t.state = .terminated

theorem onEvent_good (t : ServerInviteTxn) (e : TransactionEvent) (h : Good t) :
    Good (onEvent t e).1 := by
  unfold Good at h ⊢
  fun_cases onEvent t e <;> cases hr : t.reliable <;> simp_all

theorem replay_step (t : ServerInviteTxn) (bytes : Bytes)
    (hs : t.state = .proceeding ∨ t.state = .completed) :
    ServerStep inviteServer t.state t.lastResponse (.requestReceived "INVITE" bytes) t.state
      t.lastResponse t.replay := by
  unfold replay
  cases hl : t.lastResponse with
  | none =>
    have hne : t.state ≠ .calling := by obtain h | h := hs <;> simp [h]
    refine ServerStep.ignore hne (fun _ _ => rfl) ?_ ?_ ?_ <;>
      simp [isAck, inviteServer]
  | some last => exact ServerStep.replay hs rfl

theorem onEvent_step (t : ServerInviteTxn) (e : TransactionEvent) (h : Good t) :
    ServerStep inviteServer t.state t.lastResponse e (onEvent t e).1.state
      (onEvent t e).1.lastResponse (onEvent t e).2 := by
  obtain h | ⟨h, hc⟩ | h | h := h
  · have hopen : openState .proceeding := Or.inr rfl
    cases e with
    | sendResponseFromTu status bytes =>
      simp only [onEvent, h]
      by_cases h1 : 100 ≤ status ∧ status < 200
      · rw [if_pos h1]
        exact ServerStep.provisional hopen h1.2
      · rw [if_neg h1]
        by_cases h2 : 200 ≤ status ∧ status < 300
        · rw [if_pos h2]
          exact ServerStep.finalEnds hopen h2.1
        · rw [if_neg h2]
          by_cases h3 : 300 ≤ status ∧ status < 700
          · rw [if_pos h3]
            have hq : Quiet (if t.reliable then [] else [.armTimer .G T1]) := by
              cases t.reliable <;> simp [Quiet, sends]
            exact ServerStep.final hopen (by omega) hq
          · rw [if_neg h3, h]
            refine ServerStep.ignore ?_ ?_ ?_ ?_ ?_ <;> simp [isRetransmit, isAck]
    | requestReceived method bytes =>
      simp only [onEvent, h]
      by_cases hm : method = "INVITE"
      · have hrep := replay_step t bytes (Or.inl h)
        rw [h] at hrep
        rw [if_pos hm, hm, h]
        exact hrep
      · rw [if_neg hm, h]
        refine ServerStep.ignore ?_ ?_ ?_ ?_ ?_ <;>
          simp [isRetransmit, isAck, inviteServer, hm]
    | _ =>
      simp only [onEvent, h]
      refine ServerStep.ignore ?_ ?_ ?_ ?_ ?_ <;> simp [isRetransmit, isAck]
  · cases e with
    | requestReceived method bytes =>
      simp only [onEvent, h]
      by_cases hm : method = "INVITE"
      · have hrep := replay_step t bytes (Or.inr h)
        rw [h] at hrep
        rw [if_pos hm, hm, h]
        exact hrep
      · rw [if_neg hm]
        by_cases ha : method = "ACK"
        · rw [if_pos ha, ha]
          have hq : Quiet [.cancelTimer .G, .cancelTimer .H] := by simp [Quiet, sends]
          cases t.reliable with
          | true => exact ServerStep.ackEnds rfl hq
          | false => exact ServerStep.ack rfl hq
        · rw [if_neg ha, h]
          refine ServerStep.ignore ?_ ?_ ?_ ?_ ?_ <;>
            simp [isRetransmit, isAck, inviteServer, hm, ha]
    | timerFired id =>
      cases id with
      | G =>
        obtain ⟨last, hl⟩ := Option.ne_none_iff_exists'.mp hc
        simp only [onEvent, h, hl]
        exact ServerStep.resend (by decide) (by simp [Quiet, sends]) (by simp)
      | H =>
        simp only [onEvent, h]
        have hq : Quiet [.cancelTimer .G] := by simp [Quiet, sends]
        exact @ServerStep.timeout inviteServer _ _ hq
      | _ =>
        simp only [onEvent, h]
        refine ServerStep.ignore ?_ ?_ ?_ ?_ ?_ <;>
          simp [isRetransmit, isAck, inviteServer]
    | _ =>
      simp only [onEvent, h]
      refine ServerStep.ignore ?_ ?_ ?_ ?_ ?_ <;> simp [isRetransmit, isAck]
  · cases e with
    | timerFired id =>
      cases id with
      | I =>
        simp only [onEvent, h]
        exact ServerStep.absorbed (p := inviteServer)
      | _ =>
        simp only [onEvent, h]
        refine ServerStep.ignore ?_ ?_ ?_ ?_ ?_ <;>
          simp [isRetransmit, isAck, inviteServer]
    | _ =>
      simp only [onEvent, h]
      refine ServerStep.ignore ?_ ?_ ?_ ?_ ?_ <;> simp [isRetransmit, isAck]
  · simp only [onEvent, h]
    refine ServerStep.ignore ?_ ?_ ?_ ?_ ?_ <;> simp [isRetransmit, isAck]

end ServerInviteTxn

namespace ServerNonInviteTxn

/-- States the machine can be in. -/
def Good (t : ServerNonInviteTxn) : Prop :=
  t.state = .trying ∨ t.state = .proceeding ∨ t.state = .completed ∨ t.state = .terminated

section

variable (t : ServerNonInviteTxn)

theorem onEvent_good (e : TransactionEvent) (h : Good t) : Good (onEvent t e).1 := by
  unfold Good at h ⊢
  fun_cases onEvent t e <;> cases hr : t.reliable <;> simp_all [emitFinal]

theorem emitFinal_step (status : Nat) (bytes : Bytes) (hs : openState t.state) (h : 200 ≤ status) :
    ServerStep nonInviteServer t.state t.lastResponse (.sendResponseFromTu status bytes)
      (t.emitFinal bytes).1.state (t.emitFinal bytes).1.lastResponse (t.emitFinal bytes).2 := by
  unfold emitFinal
  by_cases hr : t.reliable = true
  · rw [if_pos hr]
    exact ServerStep.finalEnds hs h
  · rw [if_neg hr]
    have hq : Quiet [] := by simp [Quiet, sends]
    exact @ServerStep.final nonInviteServer _ _ _ _ _ _ hs h hq

theorem replay_step (method : String) (bytes : Bytes)
    (hs : t.state = .proceeding ∨ t.state = .completed) :
    ServerStep nonInviteServer t.state t.lastResponse (.requestReceived method bytes) t.state
      t.lastResponse t.replay := by
  unfold replay
  cases hl : t.lastResponse with
  | none =>
    have hne : t.state ≠ .calling := by obtain h | h := hs <;> simp [h]
    refine ServerStep.ignore hne (fun _ _ => rfl) ?_ ?_ ?_ <;>
      simp [isAck, nonInviteServer]
  | some last => exact ServerStep.replay hs rfl

theorem onEvent_step (e : TransactionEvent) (h : Good t) :
    ServerStep nonInviteServer t.state t.lastResponse e (onEvent t e).1.state
      (onEvent t e).1.lastResponse (onEvent t e).2 := by
  obtain h | h | h | h := h
  · have hopen : openState t.state := Or.inl h
    cases e with
    | sendResponseFromTu status bytes =>
      simp only [onEvent, h]
      by_cases h1 : 100 ≤ status ∧ status < 200
      · rw [if_pos h1]
        exact ServerStep.provisional (h ▸ hopen) h1.2
      · rw [if_neg h1]
        by_cases h2 : 200 ≤ status ∧ status < 700
        · have hfin := emitFinal_step t status bytes hopen h2.1
          rw [h] at hfin
          rw [if_pos h2]
          exact hfin
        · rw [if_neg h2, h]
          refine ServerStep.ignore ?_ ?_ ?_ ?_ ?_ <;> simp [isRetransmit, isAck]
    | _ =>
      simp only [onEvent, h]
      refine ServerStep.ignore ?_ ?_ ?_ ?_ ?_ <;> simp [isRetransmit, isAck]
  · have hopen : openState t.state := Or.inr h
    cases e with
    | sendResponseFromTu status bytes =>
      simp only [onEvent, h]
      by_cases h2 : 200 ≤ status ∧ status < 700
      · have hfin := emitFinal_step t status bytes hopen h2.1
        rw [h] at hfin
        rw [if_pos h2]
        exact hfin
      · rw [if_neg h2]
        by_cases h1 : 100 ≤ status ∧ status < 200
        · rw [if_pos h1]
          exact ServerStep.provisional (h ▸ hopen) h1.2
        · rw [if_neg h1, h]
          refine ServerStep.ignore ?_ ?_ ?_ ?_ ?_ <;> simp [isRetransmit, isAck]
    | requestReceived method bytes =>
      have hrep := replay_step t method bytes (Or.inl h)
      rw [h] at hrep
      simp only [onEvent, h]
      exact hrep
    | _ =>
      simp only [onEvent, h]
      refine ServerStep.ignore ?_ ?_ ?_ ?_ ?_ <;> simp [isRetransmit, isAck]
  · cases e with
    | requestReceived method bytes =>
      have hrep := replay_step t method bytes (Or.inr h)
      rw [h] at hrep
      simp only [onEvent, h]
      exact hrep
    | timerFired id =>
      cases id with
      | J =>
        simp only [onEvent, h]
        have hq : Quiet [] := by simp [Quiet, sends]
        exact @ServerStep.timeout nonInviteServer _ _ hq
      | _ =>
        simp only [onEvent, h]
        refine ServerStep.ignore ?_ ?_ ?_ ?_ ?_ <;>
          simp [isRetransmit, isAck, nonInviteServer]
    | _ =>
      simp only [onEvent, h]
      refine ServerStep.ignore ?_ ?_ ?_ ?_ ?_ <;> simp [isRetransmit, isAck]
  · simp only [onEvent, h]
    refine ServerStep.ignore ?_ ?_ ?_ ?_ ?_ <;> simp [isRetransmit, isAck]

end

end ServerNonInviteTxn

theorem serverInvite_contract :
    ServerContract inviteServer ServerInviteTxn ServerInviteTxn.lastResponse
      ServerInviteTxn.Good where
  keeps := ServerInviteTxn.onEvent_good
  step := ServerInviteTxn.onEvent_step

theorem serverNonInvite_contract :
    ServerContract nonInviteServer ServerNonInviteTxn ServerNonInviteTxn.lastResponse
      ServerNonInviteTxn.Good where
  keeps := ServerNonInviteTxn.onEvent_good
  step := ServerNonInviteTxn.onEvent_step

/-! ## the view agrees with the machine -/

/-- What the peer has seen, state by state. -/
structure Sound (s : TransactionState) (c : Option Bytes) (o : Observed) : Prop where
  agrees : o.wire.Pairwise Agrees
  opens : openState s → o.acked = false ∧ c = o.lastSent.map Prod.snd ∧
    (∀ x, o.lastSent = some x → x.1 < 200) ∧ ∀ x ∈ o.wire, x.1 < 200
  tries : s = .trying → o.lastSent = none
  completes : s = .completed → o.acked = false ∧ ∃ status bytes,
    o.lastSent = some (status, bytes) ∧ c = some bytes ∧ 200 ≤ status ∧
      ∀ x ∈ o.wire, 200 ≤ x.1 → x.2 = bytes
  confirms : s = .confirmed → o.acked = true

variable {bytes : Bytes} {wire : List (Nat × Bytes)} {as : List TransactionAction} {status : Nat}
    {last : Nat × Bytes} {c c' : Option Bytes} {p : ServerProfile} {e : TransactionEvent}
    {s s' : TransactionState} {o : Observed}

theorem observe_answer (h : sends as = [bytes]) :
    observe p o (.sendResponseFromTu status bytes) as =
      ⟨some (status, bytes), o.wire ++ [(status, bytes)], o.acked⟩ := by
  simp [observe, h, Observed.label, isAck]

theorem observe_repeat (hl : o.lastSent = some last)
    (he : ∀ status bytes, e ≠ .sendResponseFromTu status bytes) (ha : p.isAck e = false)
    (h : sends as = [last.2]) : observe p o e as = ⟨o.lastSent, o.wire ++ [last], o.acked⟩ := by
  cases e with
  | sendResponseFromTu status bytes => exact absurd rfl (he status bytes)
  | _ => simp [observe, h, hl, Observed.label, ha]

theorem observe_quiet (h : sends as = []) :
    observe p o e as = ⟨o.lastSent, o.wire, (observe p o e as).acked⟩ := by
  cases e <;> simp [observe, h]

theorem pairwise_append_of_provisional (hw : wire.Pairwise Agrees)
    (hp : ∀ x ∈ wire, x.1 < 200) (y : Nat × Bytes) : (wire ++ [y]).Pairwise Agrees := by
  rw [List.pairwise_append]
  refine ⟨hw, List.pairwise_singleton _ _, fun x hx y' _ hge => ?_⟩
  have := hp x hx
  omega

theorem pairwise_append_of_final
    (hw : wire.Pairwise Agrees) (hf : ∀ x ∈ wire, 200 ≤ x.1 → x.2 = bytes)
    (hs : 200 ≤ status) : (wire ++ [(status, bytes)]).Pairwise Agrees := by
  rw [List.pairwise_append]
  refine ⟨hw, List.pairwise_singleton _ _, fun x hx y hy hge => ?_⟩
  rw [List.mem_singleton] at hy
  rw [hy]
  exact ⟨hs, (hf x hx hge).symm⟩

theorem Sound.of_terminated (h : o.wire.Pairwise Agrees) : Sound .terminated c o := by
  constructor <;> simp [h, openState]

theorem Sound.repeat (h : Sound s c o)
    (hs : s = .proceeding ∨ s = .completed) (hl : o.lastSent = some last) :
    Sound s c ⟨o.lastSent, o.wire ++ [last], o.acked⟩ := by
  obtain rfl | rfl := hs
  · obtain ⟨ha, hc, hlt, hw⟩ := h.opens (Or.inr rfl)
    have hw' : ∀ x ∈ o.wire ++ [last], x.1 < 200 := by
      intro x hx
      rw [List.mem_append, List.mem_singleton] at hx
      obtain hx | rfl := hx
      · exact hw x hx
      · exact hlt x hl
    exact ⟨pairwise_append_of_provisional h.agrees hw last, fun _ => ⟨ha, hc, hlt, hw'⟩,
      by simp, by simp, by simp⟩
  · obtain ⟨ha, status, bytes, hlast, hc, hge, hw⟩ := h.completes rfl
    have heq : last = (status, bytes) := by
      rw [hl] at hlast
      exact Option.some.inj hlast
    rw [heq] at hl ⊢
    have hw' : ∀ x ∈ o.wire ++ [(status, bytes)], 200 ≤ x.1 → x.2 = bytes := by
      intro x hx hx200
      rw [List.mem_append, List.mem_singleton] at hx
      obtain hx | rfl := hx
      · exact hw x hx hx200
      · rfl
    exact ⟨pairwise_append_of_final h.agrees hw hge, by simp [openState], by simp,
      fun _ => ⟨ha, status, bytes, hlast, hc, hge, hw'⟩, by simp⟩

theorem Sound.cached {last : Bytes}
    (h : Sound s (some last) o) (hs : s = .proceeding ∨ s = .completed) :
    ∃ status, o.lastSent = some (status, last) := by
  obtain rfl | rfl := hs
  · obtain ⟨-, hc, -, -⟩ := h.opens (Or.inr rfl)
    obtain ⟨x, hx, hb⟩ := Option.map_eq_some_iff.mp hc.symm
    exact ⟨x.1, by rw [hx, ← hb]⟩
  · obtain ⟨-, status, bytes, hl, hc, -, -⟩ := h.completes rfl
    exact ⟨status, by rw [hl, Option.some.inj hc]⟩

section

variable (h : Sound s c o) (hstep : ServerStep p s c e s' c' as)
include h hstep

theorem Sound.step : Sound s' c' (observe p o e as) := by
  cases hstep with
  | @provisional s c status bytes hs hlt =>
    obtain ⟨ha, -, -, hw⟩ := h.opens hs
    have hsends : sends [.sendToPeer bytes] = [bytes] := rfl
    rw [observe_answer hsends]
    refine ⟨pairwise_append_of_provisional h.agrees hw _, fun _ => ⟨ha, rfl, ?_, ?_⟩, ?_, ?_, ?_⟩
    · intro x hx
      rw [← Option.some.inj hx]
      exact hlt
    · intro x hx
      rw [List.mem_append, List.mem_singleton] at hx
      obtain hx | rfl := hx
      · exact hw x hx
      · exact hlt
    all_goals simp
  | @final s c status bytes as d hs hge hq =>
    obtain ⟨ha, -, -, hw⟩ := h.opens hs
    have hsends : sends (.sendToPeer bytes :: as ++ [.armTimer p.waitTimer d]) = [bytes] := by
      simp [sends, hq.1]
    rw [observe_answer hsends]
    refine ⟨pairwise_append_of_provisional h.agrees hw _, by simp [openState], by simp,
      fun _ => ⟨ha, status, bytes, rfl, rfl, hge, ?_⟩, by simp⟩
    intro x hx hx200
    rw [List.mem_append, List.mem_singleton] at hx
    obtain hx | rfl := hx
    · have := hw x hx
      omega
    · rfl
  | @finalEnds s c c' status bytes hs hge =>
    obtain ⟨-, -, -, hw⟩ := h.opens hs
    have hsends : sends [.sendToPeer bytes, .terminated] = [bytes] := rfl
    rw [observe_answer hsends]
    exact Sound.of_terminated (pairwise_append_of_provisional h.agrees hw _)
  | @replay s e last hs hr =>
    obtain ⟨status, hl⟩ := h.cached hs
    have ha : p.isAck e = false := by
      by_contra hne
      rw [p.isRetransmit_of_isAck (by simpa using hne)] at hr
      contradiction
    have he : ∀ st b, e ≠ .sendResponseFromTu st b := by
      intro st b heq
      rw [heq] at hr
      contradiction
    rw [observe_repeat hl he ha rfl]
    exact h.repeat hs hl
  | @resend id last as hne hq hc =>
    obtain ⟨status, hl⟩ := h.cached (Or.inr rfl)
    have hsends : sends (.sendToPeer last :: as) = [last] := by simp [sends, hq.1]
    rw [observe_repeat hl (by simp) rfl hsends]
    exact h.repeat (Or.inr rfl) hl
  | @ack c e as d ha hq =>
    obtain ⟨-, status, bytes, hl, -, hge, -⟩ := h.completes rfl
    have hacked : (observe p o e (as ++ [.armTimer p.absorbTimer d])).acked = true := by
      simp [observe, ha, hl, hge]
    rw [observe_quiet (by simp [sends, hq.1]), hacked]
    exact ⟨h.agrees, by simp [openState], by simp, by simp, fun _ => rfl⟩
  | ackEnds ha hq =>
    rw [observe_quiet (by simp [sends, hq.1])]
    exact Sound.of_terminated h.agrees
  | timeout hq =>
    rw [observe_quiet (by simp [sends, hq.1])]
    exact Sound.of_terminated h.agrees
  | absorbed =>
    rw [observe_quiet rfl]
    exact Sound.of_terminated h.agrees
  | ignore _ hr ha hw hi =>
    rw [observe_quiet rfl]
    refine ⟨h.agrees, fun hs => ?_, h.tries, fun hs => ?_, fun hs => ?_⟩
    · -- no final was sent, so an ACK here acknowledges nothing
      obtain ⟨hacked, hc, hlt, hwire⟩ := h.opens hs
      refine ⟨?_, hc, hlt, hwire⟩
      cases hl : o.lastSent with
      | none => simp [observe, hl, hacked]
      | some x =>
        have hx := hlt x hl
        have hx' : ¬ 200 ≤ x.1 := by omega
        simp [observe, hl, hacked, hx']
    · obtain ⟨hacked, hrest⟩ := h.completes hs
      have hna : p.isAck e = false := by
        by_contra hne
        exact ha (by simpa using hne) hs
      exact ⟨by simp [observe, hacked, hna], hrest⟩
    · simp [observe, h.confirms hs]

/-- A retransmitted request is answered with the last response, as long as
the machine is neither acknowledged nor terminated. -/
theorem Sound.replays (hr : p.isRetransmit e = true) (hl : o.lastSent = some (status, bytes))
    (hack : o.acked = false) (hne : s ≠ .terminated) : sends as = [bytes] := by
  cases hstep with
  | @replay _ _ last hs _ =>
    obtain ⟨st, hst⟩ := h.cached hs
    rw [hl] at hst
    simp only [Option.some.injEq, Prod.mk.injEq] at hst
    simp [sends, hst.2]
  | ack ha _ | ackEnds ha _ =>
    rw [p.isRetransmit_of_isAck ha] at hr
    contradiction
  | ignore hserver hnone _ _ _ =>
    -- a replaying state has something cached, and no other state is left
    exfalso
    cases s with
    | trying => simp [h.tries rfl] at hl
    | proceeding =>
      have hc := (h.opens (Or.inr rfl)).2.1
      rw [hnone hr (Or.inl rfl), hl] at hc
      contradiction
    | completed =>
      obtain ⟨-, _, _, -, hc, -⟩ := h.completes rfl
      rw [hnone hr (Or.inr rfl)] at hc
      contradiction
    | confirmed =>
      rw [h.confirms rfl] at hack
      contradiction
    | terminated => exact hne rfl
    | calling => exact hserver rfl
  | _ => contradiction

theorem Sound.silent (hack : o.acked = true) : sends as = [] := by
  have hopen : ¬ openState s := fun hs => by
    rw [(h.opens hs).1] at hack
    contradiction
  have hcomp : s ≠ .completed := fun hs => by
    rw [(h.completes hs).1] at hack
    contradiction
  cases hstep with
  | provisional hs _ | final hs _ _ | finalEnds hs _ => exact absurd hs hopen
  | replay hs _ =>
    obtain rfl | rfl := hs
    · exact absurd (Or.inr rfl) hopen
    · exact absurd rfl hcomp
  | absorbed | ignore _ _ _ _ _ => rfl
  | _ => exact absurd rfl hcomp

end

/-! ## reporting the end, and the timer that brings it -/

/-- A terminated machine has reported its end as its last action; no other
machine has. -/
def Reported (s : TransactionState) (as : List TransactionAction) : Prop :=
  if s = .terminated then ∃ bs, as = bs ++ ([.terminated] : List TransactionAction) ∧ .terminated ∉ bs
  else .terminated ∉ as

theorem Reported.step {bs : List TransactionAction} (h : Reported s bs)
    (hstep : ServerStep p s c e s' c' as) : Reported s' (bs ++ as) := by
  have live : ∀ {s₀}, s₀ ≠ .terminated → Reported s₀ bs → .terminated ∉ bs := by
    intro s₀ hne hr
    simpa [Reported, hne] using hr
  cases hstep with
  | provisional hs _ =>
    have hb := live (by rintro rfl; simp [openState] at hs) h
    simp [Reported, hb]
  | final hs _ hq =>
    have hb := live (by rintro rfl; simp [openState] at hs) h
    simp [Reported, hb, hq.2]
  | @finalEnds _ _ _ _ bytes hs _ =>
    have hb := live (by rintro rfl; simp [openState] at hs) h
    exact ⟨bs ++ [.sendToPeer bytes], by simp, by simp [hb]⟩
  | replay hs _ =>
    have hne : s ≠ .terminated := by rintro rfl; simp at hs
    simp [Reported, hne, live hne h]
  | resend _ hq _ => simp [Reported, live (by simp) h, hq.2]
  | ack _ hq => simp [Reported, live (by simp) h, hq.2]
  | @ackEnds _ _ as _ hq => exact ⟨bs ++ as, by simp, by simp [live (by simp) h, hq.2]⟩
  | @timeout _ as hq => exact ⟨bs ++ as, by simp, by simp [live (by simp) h, hq.2]⟩
  | absorbed => exact ⟨bs, rfl, live (by simp) h⟩
  | ignore _ _ _ _ _ => rwa [List.append_nil]

/-- The timer that ends the state is armed. -/
def Timed (p : ServerProfile) (s : TransactionState) (b : TimerId → Bool) : Prop :=
  (s = .completed → b p.waitTimer = true) ∧ (s = .confirmed → b p.absorbTimer = true)

theorem Timed.step {b : TimerId → Bool} (h : Timed p s b)
    (hstep : ServerStep p s c e s' c' as) : Timed p s' (armStep b e as) := by
  cases hstep with
  | final _ _ _ => exact ⟨fun _ => armStep_of_arms_last _ _ _ _ _, by simp⟩
  | @replay _ e _ hs hr =>
    have he : ∀ id, e ≠ .timerFired id := by
      intro id heq
      rw [heq] at hr
      contradiction
    refine ⟨fun hc => armStep_of_kept (h.1 hc) (he _) (by simp), fun hc => ?_⟩
    rw [hc] at hs
    simp at hs
  | resend hne hq hc =>
    refine ⟨fun _ => armStep_of_kept (h.1 rfl) (by simpa using hne) ?_, by simp⟩
    simpa using hc
  | ack _ _ => exact ⟨by simp, fun _ => armStep_of_arms_last _ _ _ _ _⟩
  | ignore _ _ _ hw hi =>
    exact ⟨fun hc => armStep_of_kept (h.1 hc) (hw hc) (by simp),
      fun hc => armStep_of_kept (h.2 hc) (hi hc) (by simp)⟩
  | _ => simp [Timed]

/-! ## the guarantee -/

/-- What a run of a server machine guarantees. -/
structure ServerGuarantee (p : ServerProfile) {τ : Type} [Transaction τ] (t : τ)
    (evs : List TransactionEvent) : Prop where
  /-- A retransmitted request is answered with the last response sent, and
  nothing else, until the end or, for INVITE, the ACK. -/
  replays : ∀ e status bytes, p.isRetransmit e = true →
    (observed p t evs).lastSent = some (status, bytes) → (observed p t evs).acked = false →
    .terminated ∉ emitted t evs → sends (Transaction.onEvent (after t evs) e).2 = [bytes]
  /-- The observed wire is what was sent. -/
  wireSends : (observed p t evs).wire.map Prod.snd = sends (emitted t evs)
  /-- After a final only that very final: finals agree byte for byte and no
  provisional follows. -/
  wireAgrees : (observed p t evs).wire.Pairwise Agrees
  /-- After the ACK nothing is sent any more. -/
  silentAfterAck : (observed p t evs).acked = true →
    ∀ e, sends (Transaction.onEvent (after t evs) e).2 = []
  /-- The end is reported once, as the last action of the run. -/
  reports : Reported (state (after t evs)) (emitted t evs)
  /-- In Completed and Confirmed the timer that ends the state is armed. -/
  timers : Timed p (state (after t evs)) (armed t evs)

namespace ServerContract

variable {p : ServerProfile} {τ : Type} [Transaction τ] {cache : τ → Option Bytes} {good : τ → Prop}

variable {t : τ}

section

variable (hc : ServerContract p τ cache good) (hg : good t)
include hc hg

theorem sound_run (h : Sound (state t) (cache t) .start) (evs : List TransactionEvent) :
    good (after t evs) ∧
      Sound (state (after t evs)) (cache (after t evs)) (observed p t evs) := by
  refine (machine τ).monitor_invariant (observe p)
    (P := fun t o => good t ∧ Sound (state t) (cache t) o) ?_ ⟨hg, h⟩ evs
  intro t o e ⟨hg, h⟩
  exact ⟨hc.keeps t e hg, h.step (hc.step t e hg)⟩

theorem reported_run (hne : state t ≠ .terminated) (evs : List TransactionEvent) :
    Reported (state (after t evs)) (emitted t evs) := by
  have h := (machine τ).monitor_invariant (fun b _ as => b ++ as)
    (P := fun t b => good t ∧ Reported (state t) b) (s := t) (b := []) ?_
    ⟨hg, by simp [Reported, hne]⟩ evs
  · rw [Mealy.monitor_collect] at h
    exact h.2
  · intro t b e ⟨hg, h⟩
    exact ⟨hc.keeps t e hg, h.step (hc.step t e hg)⟩

theorem timed_run (ho : openState (state t)) (evs : List TransactionEvent) :
    Timed p (state (after t evs)) (armed t evs) := by
  have h0 : Timed p (state t) (fun _ => false) := by
    obtain h | h := ho <;> simp [Timed, h]
  refine ((machine τ).monitor_invariant armStep
    (P := fun t b => good t ∧ Timed p (state t) b) ?_ ⟨hg, h0⟩ evs).2
  intro t b e ⟨hg, h⟩
  exact ⟨hc.keeps t e hg, h.step (hc.step t e hg)⟩

end

theorem wire_eq_sends (t : τ) (evs : List TransactionEvent) :
    (observed p t evs).wire.map Prod.snd = sends (emitted t evs) := by
  have hacc : ∀ (t : τ) (o : Observed),
      ((machine τ).monitor (observe p) t o evs).wire.map Prod.snd =
        o.wire.map Prod.snd ++ sends ((machine τ).outputs t evs) := by
    induction evs with
    | nil => simp [Mealy.monitor, Mealy.outputs, sends]
    | cons e evs ih =>
      intro t o
      rw [Mealy.monitor, ih, Mealy.outputs, sends_append]
      simp [observe, Function.comp_def]
  simpa [Observed.start, observed, emitted] using hacc t .start

/-- A machine that makes server moves only and starts with nothing cached
keeps the guarantee over every run. -/
theorem guarantee (hc : ServerContract p τ cache good) (hg : good t)
    (ho : openState (state t)) (hnone : cache t = none)
    (evs : List TransactionEvent) : ServerGuarantee p t evs := by
  have hne : state t ≠ .terminated := by
    intro h
    simp [openState, h] at ho
  have h0 : Sound (state t) (cache t) .start := by
    rw [hnone]
    obtain h | h := ho <;> constructor <;> simp [h, Observed.start, openState]
  obtain ⟨hgood, hsound⟩ := hc.sound_run hg h0 evs
  have hrep := hc.reported_run hg hne evs
  refine ⟨?_, wire_eq_sends t evs, hsound.agrees, ?_, hrep, hc.timed_run hg ho evs⟩
  · intro e status bytes hr hl hack hend
    refine hsound.replays (hc.step _ e hgood) hr hl hack fun hterm => ?_
    rw [Reported, if_pos hterm] at hrep
    obtain ⟨bs, hbs, -⟩ := hrep
    rw [hbs] at hend
    simp at hend
  · intro hack e
    exact hsound.silent (hc.step _ e hgood) hack

end ServerContract

/-- **Server transactions replay**: for every run, on either kind of
transport, both server machines answer every retransmitted request with the
last response sent until they end or are acknowledged, never put anything but
that very final on the wire after a final, send nothing after the ACK, report
their end once as their last action, and keep the timer that ends Completed
or Confirmed armed. -/
theorem server_transactions_replay (branch method : String) (reliable : Bool)
    (evs : List TransactionEvent) : ServerGuarantee inviteServer
        (setReliable (ServerInviteTxn.new branch) reliable) evs ∧
      ServerGuarantee nonInviteServer
        (setReliable (ServerNonInviteTxn.new branch method) reliable) evs :=
  ⟨serverInvite_contract.guarantee (Or.inl rfl) (Or.inr rfl) rfl evs,
    serverNonInvite_contract.guarantee (Or.inl rfl) (Or.inl rfl) rfl evs⟩

/-- An INVITE that arrives in Confirmed, after the ACK and before timer I, is
not answered. -/
theorem confirmed_invite_not_replayed :
    ¬ ∀ (branch : String) (reliable : Bool) (evs : List TransactionEvent) (e : TransactionEvent)
        (status : Nat) (bytes : Bytes), inviteServer.isRetransmit e = true →
      (observed inviteServer (setReliable (ServerInviteTxn.new branch) reliable)
        evs).lastSent = some (status, bytes) →
      .terminated ∉ emitted (setReliable (ServerInviteTxn.new branch) reliable) evs →
      sends (Transaction.onEvent
        (after (setReliable (ServerInviteTxn.new branch) reliable) evs) e).2 =
        [bytes] := by
  intro h
  have := h "z9hG4bK-1" false [.sendResponseFromTu 486 [1], .requestReceived "ACK" []]
    (.requestReceived "INVITE" []) 486 [1] rfl (by decide) (by decide)
  contradiction

end SmithsNet.Txn
