import SmithsNet.Ice.Steps

/-!
# SmithsNet.Ice.Nomination

Where a nomination comes from.  An agent is watched with its calls; what an
agent has selected is traced to the call that asked for it, or to the check
that carried USE-CANDIDATE and the response that confirmed it.

`nominationSound_of_nominatesControlling`: the trace exists, and the selection
stays, in every run in which a nominating check is sent by a controlling agent
only.  `nominated_without_useCandidate`: a nominating check that is still queued
when the role is given up goes out without USE-CANDIDATE and nominates all the
same.
-/

namespace SmithsNet.Ice

open Lib SmithsNet.Core IceAgent

/-- Calls, each with the agent it was made to. -/
abbrev Past := List (IceAgent × Event)

structure Watched where
  agent : IceAgent
  past : Past

section

variable (hmac : Hmac)

def Watched.step (w : Watched) (e : Event) : Option Watched :=
  some ⟨w.agent.handle hmac e, w.past ++ [(w.agent, e)]⟩

/-! ## provenance -/

/-- An authenticated request with USE-CANDIDATE arrived on the pair of addresses;
the agent was controlled, if need be by the request itself. -/
def AskedFor (past : Past) (here there : SocketAddr) : Prop :=
  ∃ a raw clock msg a₁, (a, Event.datagram raw there here clock) ∈ past ∧ decode raw = .ok msg ∧
    msg.kind = .request ∧ msg.useCandidate = true ∧ verifyFingerprint raw = true ∧
    a.authentic hmac msg raw = true ∧ a.resolveRole msg = some a₁ ∧ a₁.role = .controlled

/-- A check with USE-CANDIDATE was sent on the pair of addresses. -/
def SentFor (past : Past) (here there : SocketAddr) (tid : TransactionId) : Prop :=
  ∃ a now tid' o msg, (a, Event.tick now tid') ∈ past ∧ o ∈ (a.tickAt hmac now tid').2 ∧
    o.socket = here ∧ o.destination = there ∧ decode o.bytes = .ok msg ∧ msg.kind = .request ∧
    msg.useCandidate = true ∧ msg.transactionId = tid

/-- Such a check was sent, and an authenticated success answered it. -/
def ConfirmedFor (past : Past) (here there : SocketAddr) : Prop :=
  ∃ before a raw clock after msg, past = before ++ (a, Event.datagram raw there here clock) :: after ∧
    decode raw = .ok msg ∧ msg.kind = .successResponse ∧ verifyFingerprint raw = true ∧
    verifyMessageIntegrity hmac raw a.remoteKey = true ∧
    SentFor hmac before here there msg.transactionId

/-- What the agent has selected. -/
structure NominationSound (w : Watched) : Prop where
  completed : w.agent.state = .completed ↔ ∃ p, w.agent.selectedPair = some p
  selected : ∀ p, w.agent.selectedPair = some p → p.nominated = true ∧ p.state = .succeeded ∧
    (AskedFor hmac w.past p.localAddr p.remoteAddr ∨ ConfirmedFor hmac w.past p.localAddr p.remoteAddr)
  stable : ∀ x ∈ w.past, x.1.state = .completed →
    w.agent.state = .completed ∧ w.agent.selected = x.1.selected ∧
      w.agent.selectedPair.map (fun p => (p.localCand, p.remoteCand)) =
        x.1.selectedPair.map fun p => (p.localCand, p.remoteCand)

/-- A tick that starts a nominating check is one of a controlling agent. -/
def NominatesControlling (w : Watched) : Event → Prop
  | .tick now _ => w.agent.state = .checking → (w.agent.retransmit now).1.paced now = true →
      (w.agent.nextAt now).map Prod.snd = some true → w.agent.role = .controlling
  | _ => True

instance : ∀ w e, Decidable (NominatesControlling w e)
  | _, .tick _ _ => inferInstanceAs (Decidable (_ → _ → _ → _))
  | _, .datagram .. => isTrue trivial
  | _, .addRemote _ => isTrue trivial

end

variable {hmac : Hmac} {past : Past} {here there : SocketAddr} {tid : TransactionId}

theorem AskedFor.later (h : AskedFor hmac past here there) (x : IceAgent × Event) :
    AskedFor hmac (past ++ [x]) here there := by
  obtain ⟨a, raw, clock, msg, a₁, hmem, hrest⟩ := h
  exact ⟨a, raw, clock, msg, a₁, List.mem_append_left _ hmem, hrest⟩

theorem SentFor.later (h : SentFor hmac past here there tid) (x : IceAgent × Event) :
    SentFor hmac (past ++ [x]) here there tid := by
  obtain ⟨a, now, tid', o, msg, hmem, hrest⟩ := h
  exact ⟨a, now, tid', o, msg, List.mem_append_left _ hmem, hrest⟩

theorem ConfirmedFor.later (h : ConfirmedFor hmac past here there) (x : IceAgent × Event) :
    ConfirmedFor hmac (past ++ [x]) here there := by
  obtain ⟨before, a, raw, clock, after, msg, hpast, hrest⟩ := h
  refine ⟨before, a, raw, clock, after ++ [x], msg, ?_, hrest⟩
  rw [hpast, List.append_assoc, List.cons_append]

/-! ## what is kept -/

/-- Requests and nominating checks can be traced, and so can what is selected. -/
structure Traced (hmac : Hmac) (past : Past) (a : IceAgent) : Prop where
  requested : ∀ (i : Nat) (p : IcePair), a.pairs[i]? = some p → p.nominateRequested = true →
    AskedFor hmac past p.localAddr p.remoteAddr
  sent : ∀ c ∈ a.pending, c.nominating = true → ∃ p, a.pairs[c.pairIdx]? = some p ∧
    SentFor hmac past p.localAddr p.remoteAddr c.transactionId
  selected : (a.state ≠ .completed ∧ a.selected = none) ∨
    (a.state = .completed ∧ a.pending = [] ∧ ∃ i p, a.selected = some i ∧ a.pairs[i]? = some p ∧
      p.nominated = true ∧ p.state = .succeeded ∧
      (AskedFor hmac past p.localAddr p.remoteAddr ∨ ConfirmedFor hmac past p.localAddr p.remoteAddr))

namespace Traced

variable {a a' : IceAgent}

section

variable (h : Traced hmac past a)
include h

theorem later (x : IceAgent × Event) : Traced hmac (past ++ [x]) a where
  requested i p hp hreq := (h.requested i p hp hreq).later x
  sent c hc hnom := by
    obtain ⟨p, hp, hsent⟩ := h.sent c hc hnom
    exact ⟨p, hp, hsent.later x⟩
  selected := by
    obtain hopen | ⟨hstate, hpending, i, p, hi, hp, hnom, hsucc, horigin⟩ := h.selected
    · exact .inl hopen
    · refine .inr ⟨hstate, hpending, i, p, hi, hp, hnom, hsucc, ?_⟩
      exact horigin.imp (AskedFor.later · x) (ConfirmedFor.later · x)

theorem opened (hpending : a.pending ≠ []) : a.state ≠ .completed ∧ a.selected = none := by
  obtain hopen | ⟨-, hnil, -⟩ := h.selected
  · exact hopen
  · exact absurd hnil hpending

theorem requested_of_sameCore (hcore : SameCore a a') {i : Nat} {p' : IcePair}
    (hp' : a'.pairs[i]? = some p') (hreq : p'.nominateRequested = true) :
    AskedFor hmac past p'.localAddr p'.remoteAddr := by
  obtain ⟨p, hp, hsame⟩ := hcore.pair hp'
  obtain ⟨hlocal, hremote, hrequested⟩ := IcePair.addrs_of_core hsame
  rw [hlocal, hremote]
  exact h.requested i p hp (hrequested ▸ hreq)

end

variable {p : IcePair} {idx : Nat} {c : PendingCheck} {msg : StunMessage}

section

variable (h : Traced hmac past a)
include h

theorem sent_of_sameCore (hcore : SameCore a a') (hc : c ∈ a.pending) (hnom : c.nominating = true) :
    ∃ p', a'.pairs[c.pairIdx]? = some p' ∧
      SentFor hmac past p'.localAddr p'.remoteAddr c.transactionId := by
  obtain ⟨p, hp, hsent⟩ := h.sent c hc hnom
  obtain ⟨p', hp', hsame⟩ := hcore.symm.pair hp
  obtain ⟨hlocal, hremote, -⟩ := IcePair.addrs_of_core hsame
  rw [hlocal, hremote] at hsent
  exact ⟨p', hp', hsent⟩

theorem of_open (hcore : SameCore a a')
    (hpending : ∀ c ∈ a'.pending, c ∈ a.pending) (hstate : a'.state ≠ .completed)
    (hselected : a'.selected = none) : Traced hmac past a' where
  requested _ _ hp' hreq := h.requested_of_sameCore hcore hp' hreq
  sent c hc hnom := h.sent_of_sameCore hcore (hpending c hc) hnom
  selected := .inl ⟨hstate, hselected⟩

theorem takePending {tid : TransactionId} (htaken : a.takePending tid = some (c, a')) :
    Traced hmac past a' ∧ (a'.state ≠ .completed ∧ a'.selected = none) ∧ a'.pairs = a.pairs := by
  obtain ⟨hmem, -, hless, hframe, hpairs, hstate, -⟩ := frame_takePending htaken
  have hopen := h.opened (List.ne_nil_of_mem hmem)
  rw [← hstate, ← hframe.selected] at hopen
  exact ⟨h.of_open (.of_frame hframe) hless hopen.1 hopen.2, hopen, hpairs⟩

theorem ended (hopen : a.state ≠ .completed ∧ a.selected = none)
    (c : PendingCheck) : Traced hmac past (a.endNomination c).updateFailure := by
  obtain ⟨hframe, -, hpending, -, hstate⟩ := frame_ended a c
  refine h.of_open (.of_frame hframe) (fun c' hc' => hpending ▸ hc') ?_ (hframe.selected.trans hopen.2)
  obtain hsame | ⟨-, hfailed⟩ := hstate
  · rw [hsame]
    exact hopen.1
  · rw [hfailed]
    decide

theorem nominate (hp : a.pairs[idx]? = some p) (hsucc : p.state = .succeeded)
    (horigin : AskedFor hmac past p.localAddr p.remoteAddr ∨
      ConfirmedFor hmac past p.localAddr p.remoteAddr) (clock : Nat) :
    Traced hmac past (a.nominate idx clock) := by
  have hcore := sameCore_nominate a idx clock
  unfold IceAgent.nominate at hcore ⊢
  split
  · exact h
  · next hstate =>
    rw [if_neg hstate] at hcore
    refine ⟨fun i p' hp' hreq => h.requested_of_sameCore hcore hp' hreq, by simp, .inr ?_⟩
    refine ⟨rfl, rfl, idx, { p with nominated := true }, rfl, ?_, rfl, hsucc, horigin⟩
    simp [hp]

theorem grows {c : IceCandidate} (hgrows : Grows c a a') : Traced hmac past a' := by
  obtain ⟨new, hpairs, hfresh⟩ := hgrows.pairs
  have hold : ∀ {i : Nat} {p : IcePair}, a.pairs[i]? = some p → a'.pairs[i]? = some p := by
    intro i p hp
    rw [hpairs, List.getElem?_append_left (List.getElem?_eq_some_iff.mp hp).1, hp]
  refine ⟨?_, ?_, ?_⟩
  · intro i p hp hreq
    rw [hpairs, List.getElem?_append] at hp
    split at hp
    · exact h.requested i p hp hreq
    · have hnot := (hfresh p (List.mem_of_getElem? hp)).nominateRequested
      rw [hnot] at hreq
      contradiction
  · intro c hc hnom
    rw [hgrows.pending] at hc
    obtain ⟨p, hp, hsent⟩ := h.sent c hc hnom
    exact ⟨p, hold hp, hsent⟩
  · rw [hgrows.pending, hgrows.selected]
    obtain ⟨hstate, hnone⟩ | ⟨hstate, hpending, i, p, hi, hp, hrest⟩ := h.selected
    · refine .inl ⟨?_, hnone⟩
      obtain hsame | ⟨-, hchecking⟩ := hgrows.state
      · rwa [hsame]
      · rw [hchecking]
        decide
    · refine .inr ⟨?_, hpending, i, p, hi, hold hp, hrest⟩
      obtain hsame | ⟨hfailed, -⟩ := hgrows.state
      · rw [hsame, hstate]
      · rw [hfailed] at hstate
        contradiction

theorem switchRole (role : IceRole) : Traced hmac past (a.switchRole role) := by
  have hcore := sameCore_switchRole a role
  refine ⟨fun i p' hp' hreq => h.requested_of_sameCore hcore hp' hreq,
    fun c hc hnom => h.sent_of_sameCore hcore hc hnom, ?_⟩
  obtain hopen | ⟨hstate, hpending, i, p, hi, hp, hrest⟩ := h.selected
  · exact .inl hopen
  · have hp' : (a.switchRole role).pairs[i]? = some { p with
        priority := pairPriority role p.localCand.priority p.remoteCand.priority } := by
      simp [IceAgent.switchRole, hp]
    exact .inr ⟨hstate, hpending, i, _, hi, hp', hrest⟩

theorem revive : Traced hmac past a.revive := by
  obtain hsame | ⟨hfailed, hrevived⟩ := revive_eq a
  · rwa [hsame]
  · rw [hrevived]
    refine ⟨h.requested, h.sent, ?_⟩
    obtain ⟨-, hnone⟩ | ⟨hstate, -⟩ := h.selected
    · exact .inl ⟨by simp, hnone⟩
    · rw [hfailed] at hstate
      contradiction

theorem noteNomination (hp : a.pairs[idx]? = some p)
    (hasked : a.asks msg = true → AskedFor hmac past p.localAddr p.remoteAddr) :
    Traced hmac past (a.noteNomination msg idx) := by
  rw [noteNomination_eq]
  have hget : ∀ i, (a.pairs.modify idx fun p =>
      { p with nominateRequested := p.nominateRequested || a.asks msg })[i]? =
        if i = idx then some { p with nominateRequested := p.nominateRequested || a.asks msg }
        else a.pairs[i]? := by
    intro i
    rw [List.getElem?_modify]
    by_cases hi : i = idx
    · subst hi
      simp [hp]
    · simp [hi, Ne.symm hi]
  refine ⟨?_, ?_, ?_⟩
  · intro i p' hp' hreq
    rw [hget] at hp'
    split at hp'
    · cases hp'
      obtain hbefore | hnow := Bool.or_eq_true_iff.mp hreq
      · exact h.requested idx p hp hbefore
      · exact hasked hnow
    · exact h.requested i p' hp' hreq
  · intro c hc hnom
    obtain ⟨p', hp', hsent⟩ := h.sent c hc hnom
    by_cases hi : c.pairIdx = idx
    · rw [hi, hp] at hp'
      cases hp'
      exact ⟨_, (hget c.pairIdx).trans (if_pos hi), hsent⟩
    · exact ⟨p', (hget c.pairIdx).trans ((if_neg hi).trans hp'), hsent⟩
  · obtain hopen | ⟨hstate, hpending, i, p', hi, hp', hrest⟩ := h.selected
    · exact .inl hopen
    · refine .inr ⟨hstate, hpending, ?_⟩
      by_cases hsame : i = idx
      · rw [hsame, hp] at hp'
        cases hp'
        exact ⟨i, _, hi, (hget i).trans (if_pos hsame), hrest⟩
      · exact ⟨i, p', hi, (hget i).trans ((if_neg hsame).trans hp'), hrest⟩

theorem setPairState (hp : a.pairs[idx]? = some p)
    (hstate : p.state ≠ .succeeded) (state : PairState) :
    Traced hmac past (a.setPairState idx state) := by
  have hcore := SameCore.of_frame (frame_setPairState a idx state)
  refine ⟨fun i p' hp' hreq => h.requested_of_sameCore hcore hp' hreq,
    fun c hc hnom => h.sent_of_sameCore hcore hc hnom, ?_⟩
  obtain hopen | ⟨hdone, hpending, i, p', hi, hp', hnom, hsucc, horigin⟩ := h.selected
  · exact .inl hopen
  · have hother : idx ≠ i := by
      intro hsame
      rw [hsame, hp', Option.some.injEq] at hp
      rw [← hp] at hstate
      exact hstate hsucc
    refine .inr ⟨hdone, hpending, i, p', hi, ?_, hnom, hsucc, horigin⟩
    simp [IceAgent.setPairState, hother, hp']

theorem onPair {source localAddr : SocketAddr}
    (hasked : a.asks msg = true → AskedFor hmac past localAddr source) (clock : Nat) :
    Traced hmac past (a.onPair msg source localAddr clock) := by
  obtain hsame | ⟨idx, p, hp, rfl, rfl, hcases⟩ := onPair_cases a msg source localAddr clock
  · rwa [hsame]
  · have hnoted := h.noteNomination hp hasked
    have hp' : (a.noteNomination msg idx).pairs[idx]? =
        some { p with nominateRequested := p.nominateRequested || a.asks msg } := by
      simp [noteNomination_eq, hp]
    obtain ⟨hstate, hreq, heq⟩ | ⟨-, heq⟩ | ⟨-, heq⟩ | ⟨hstate, -, heq⟩ := hcases
    · rw [heq]
      have horigin := hnoted.requested idx _ hp' hreq
      exact (hnoted.nominate hp' hstate (.inl horigin) clock).revive
    · rw [heq]
      exact hnoted.revive
    · rw [heq]
      exact revive ⟨hnoted.requested, hnoted.sent, hnoted.selected⟩
    · rw [heq]
      have hwaiting := hnoted.setPairState hp' (by simp [hstate]) .waiting
      exact revive ⟨hwaiting.requested, hwaiting.sent, hwaiting.selected⟩

theorem concludeCheck (hopen : a.state ≠ .completed ∧ a.selected = none)
    (hp : a.pairs[c.pairIdx]? = some p) {requested : Bool}
    (hrequested : requested = true → AskedFor hmac past p.localAddr p.remoteAddr)
    (hconfirmed : c.nominating = true → ConfirmedFor hmac past p.localAddr p.remoteAddr)
    (clock : Nat) : Traced hmac past (a.concludeCheck c requested clock) := by
  have hcore := SameCore.of_frame (frame_setPairState a c.pairIdx .succeeded)
  have hdone : Traced hmac past (a.setPairState c.pairIdx .succeeded) :=
    h.of_open hcore (fun _ hc => hc) hopen.1 hopen.2
  have hp' : (a.setPairState c.pairIdx .succeeded).pairs[c.pairIdx]? =
      some { p with state := .succeeded } := by
    simp [IceAgent.setPairState, hp]
  unfold IceAgent.concludeCheck
  dsimp only
  split
  · next hnominates =>
    refine hdone.nominate hp' rfl ?_ clock
    obtain hnominating | hasked := Bool.or_eq_true_iff.mp hnominates
    · exact .inr (hconfirmed hnominating)
    · exact .inl (hrequested hasked)
  · split
    · exact ⟨hdone.requested, hdone.sent, hdone.selected⟩
    · exact hdone

theorem tick {now : Nat} {tid : TransactionId}
    (hok : NominatesControlling ⟨a, past⟩ (.tick now tid)) :
    Traced hmac (past ++ [(a, .tick now tid)]) (a.tickAt hmac now tid).1 := by
  have hlater := h.later (a, .tick now tid)
  by_cases hchecking : a.state = .checking
  · obtain ⟨hframe, hstate, -⟩ := frame_tickAt hmac a now tid
    have hcore := SameCore.of_frame hframe
    refine ⟨fun i p' hp' hreq => hlater.requested_of_sameCore hcore hp' hreq, ?_, .inl ⟨?_, ?_⟩⟩
    · intro c' hc' hnom
      obtain ⟨c, hc, hrequest, hidx, hnominating⟩ | ⟨idx, nominate, pair, bytes, -, hpaced, hnext,
        hpair, hbytes, rfl, hout⟩ := pending_tickAt hmac hc'
      · obtain ⟨p', hp', hsent⟩ := hlater.sent_of_sameCore hcore hc (hnominating ▸ hnom)
        refine ⟨p', by rw [hidx, hp'], ?_⟩
        rwa [PendingCheck.transactionId, hrequest]
      · obtain rfl : nominate = true := hnom
        have hrole : a.role = .controlling := hok hchecking hpaced (by rw [hnext]; rfl)
        have hcore' := (SameCore.of_frame (frame_retransmit a now).1).symm.trans hcore
        obtain ⟨p', hp', hsame⟩ := hcore'.symm.pair hpair
        obtain ⟨hlocal, hremote, -⟩ := IcePair.addrs_of_core hsame
        obtain ⟨msg, hdecode, hkind, htid, huse, -⟩ := decode_check hmac hbytes
        have hcarries : msg.useCandidate = true := by rw [huse, hrole]; rfl
        have htid' : (a.newCheck idx pair true now tid bytes).transactionId = tid := by
          simp only [newCheck, PendingCheck.transactionId, checkMessage]
          split <;> rfl
        refine ⟨p', hp', a, now, tid, _, msg, List.mem_append_right _ (List.mem_singleton.mpr rfl),
          hout, hlocal, hremote, hdecode, hkind, hcarries, ?_⟩
        rw [htid, htid']
    · obtain hsame | ⟨-, hfailed⟩ := hstate
      · rw [hsame, hchecking]
        decide
      · rw [hfailed]
        decide
    · rw [hframe.selected]
      obtain ⟨-, hnone⟩ | ⟨hdone, -⟩ := h.selected
      · exact hnone
      · rw [hchecking] at hdone
        contradiction
  · obtain ⟨last, hkept⟩ := tickAt_idle hmac hchecking now tid
    rw [hkept]
    exact ⟨hlater.requested, hlater.sent, hlater.selected⟩

theorem resolveRole (hrole : a.resolveRole msg = some a') : Traced hmac past a' := by
  obtain rfl | ⟨-, rfl, -⟩ | ⟨-, rfl, -⟩ := resolveRole_cases hrole
  · exact h
  · exact h.switchRole _
  · exact h.switchRole _

/-- A datagram: what it makes of the agent is traced to the datagram itself. -/
theorem datagram (raw : Bytes) (source localAddr : SocketAddr)
    (clock : Nat) : Traced hmac (past ++ [(a, .datagram raw source localAddr clock)])
      (a.handleDatagramAt hmac raw source localAddr clock).1 := by
  have hlater := h.later (a, .datagram raw source localAddr clock)
  obtain hsame | ⟨msg, hdecode, hrequest | hsuccess | herror⟩ :=
    handleDatagramAt_cases a raw source localAddr clock
  · rwa [hsame]
  · obtain ⟨hkind, a₁, hfp, hauth, hrole, hdone⟩ := hrequest
    rw [hdone]
    have h₁ := hlater.resolveRole hrole
    have hasked : a₁.asks msg = true → AskedFor hmac
        (past ++ [(a, .datagram raw source localAddr clock)]) localAddr source := by
      intro hasks
      obtain ⟨huse, hcontrolled⟩ := Bool.and_eq_true_iff.mp hasks
      exact ⟨a, raw, clock, msg, a₁, List.mem_append_right _ (List.mem_singleton.mpr rfl), hdecode,
        hkind, huse, hfp, hauth, hrole, of_decide_eq_true hcontrolled⟩
    obtain hsame | ⟨there, hgrows, -⟩ := learnRemotePrflx_cases a₁ msg source localAddr
    · rw [hsame]
      exact h₁.onPair hasked clock
    · have hasks : (a₁.learnRemotePrflx msg source localAddr).asks msg = a₁.asks msg := by
        rw [asks, hgrows.role, asks]
      exact (h₁.grows hgrows).onPair (hasks ▸ hasked) clock
  · obtain ⟨hkind, c, taken, pair, htaken, hfp, hmac', hpair, hdone⟩ := hsuccess
    obtain ⟨hmem, htid, -⟩ := frame_takePending htaken
    obtain ⟨h₁, hopen, hpairs⟩ := hlater.takePending htaken
    obtain ⟨hfail, -⟩ | ⟨hconclude, rfl, rfl⟩ := hdone
    · rw [hfail]
      have hcore := SameCore.of_frame (frame_setPairState taken c.pairIdx .failed)
      exact (h₁.of_open hcore (fun _ h => h) hopen.1 hopen.2).ended hopen c
    · rw [hconclude]
      have hcore := sameCore_noteMapped taken c.pairIdx pair msg.xorMappedAddress
      obtain ⟨hstate, hselected, hpending⟩ :=
        noteMapped_kept taken c.pairIdx pair msg.xorMappedAddress
      rw [← hstate, ← hselected] at hopen
      have h₂ := h₁.of_open hcore (fun c' hc' => hpending ▸ hc') hopen.1 hopen.2
      obtain ⟨p', hp', hsame⟩ := hcore.symm.pair (hpairs ▸ hpair)
      obtain ⟨hlocal, hremote, hreq⟩ := IcePair.addrs_of_core hsame
      refine h₂.concludeCheck hopen hp' ?_ ?_ clock
      · intro hasked
        exact h₂.requested c.pairIdx p' hp' (hreq ▸ hasked)
      · intro hnominating
        obtain ⟨p, hp, hsent⟩ := h.sent c hmem hnominating
        rw [hpair, Option.some.injEq] at hp
        rw [← hp, htid] at hsent
        rw [← hlocal, ← hremote]
        exact ⟨past, a, raw, clock, [], msg, rfl, hdecode, hkind, hfp, hmac', hsent⟩
  · obtain ⟨-, c, taken, htaken, hdone⟩ := herror
    obtain ⟨h₁, hopen, -⟩ := hlater.takePending htaken
    obtain ⟨-, -, hconflict⟩ | ⟨code, -, hrejected⟩ := hdone
    · rw [hconflict]
      exact h₁.of_open (sameCore_onRoleConflict taken c) (fun _ h => h) hopen.1 hopen.2
    · rw [hrejected, onRejected_eq]
      exact (h₁.of_open (sameCore_reject taken c code) (fun _ h => h) hopen.1
        hopen.2).ended hopen c

theorem handle {e : Event} (hok : NominatesControlling ⟨a, past⟩ e) :
    Traced hmac (past ++ [(a, e)]) (a.handle hmac e) := by
  cases e with
  | tick now tid => exact h.tick hok
  | datagram raw source localAddr clock => exact h.datagram raw source localAddr clock
  | addRemote c =>
    have hlater := h.later (a, .addRemote c)
    obtain hsame | hgrows := addRemoteCandidate_cases a c
    · rwa [IceAgent.handle, hsame]
    · exact hlater.grows hgrows

end

theorem new (params : IceParams) (locals remotes : List IceCandidate) (sockets : List SocketAddr) :
    Traced hmac [] (.new params locals remotes sockets) := by
  refine List.foldlRecOn remotes addRemoteCandidate ?_ ?_
  · exact ⟨by simp, by simp, .inl ⟨by simp, rfl⟩⟩
  · intro a h c _
    obtain hsame | hgrows := addRemoteCandidate_cases a c
    · rwa [hsame]
    · exact h.grows hgrows

end Traced

/-! ## what stays -/

/-- A completed agent keeps its selection. -/
structure Settled (a a' : IceAgent) : Prop where
  state : a'.state = .completed
  selected : a'.selected = a.selected
  pairs : ∀ (i : Nat) (p : IcePair), a.pairs[i]? = some p → ∃ p', a'.pairs[i]? = some p' ∧
    p'.localCand = p.localCand ∧ p'.remoteCand = p.remoteCand

namespace Settled

variable {a a' a'' : IceAgent}

theorem trans (h : Settled a a') (h' : Settled a' a'') : Settled a a'' where
  state := h'.state
  selected := h'.selected.trans h.selected
  pairs i p hp := by
    obtain ⟨p', hp', hlocal, hremote⟩ := h.pairs i p hp
    obtain ⟨p'', hp'', hlocal', hremote'⟩ := h'.pairs i p' hp'
    exact ⟨p'', hp'', hlocal'.trans hlocal, hremote'.trans hremote⟩

theorem of_sameCore (hcore : SameCore a a') (hstate : a'.state = .completed)
    (hselected : a'.selected = a.selected) : Settled a a' where
  state := hstate
  selected := hselected
  pairs i p hp := by
    obtain ⟨p', hp', hsame⟩ := hcore.symm.pair hp
    exact ⟨p', hp', congrArg Prod.fst hsame.symm, congrArg (fun x => x.2.1) hsame.symm⟩

theorem of_grows {c : IceCandidate} (h : Grows c a a') (hstate : a.state = .completed) :
    Settled a a' where
  state := by
    obtain hsame | ⟨hfailed, -⟩ := h.state
    · rw [hsame, hstate]
    · rw [hstate] at hfailed
      contradiction
  selected := h.selected
  pairs i p hp := by
    obtain ⟨new, hpairs, -⟩ := h.pairs
    refine ⟨p, ?_, rfl, rfl⟩
    rw [hpairs, List.getElem?_append_left (List.getElem?_eq_some_iff.mp hp).1, hp]

theorem revive (h : Settled a a') : Settled a a'.revive := by
  obtain hsame | ⟨hfailed, -⟩ := revive_eq a'
  · rwa [hsame]
  · rw [h.state] at hfailed
    contradiction

theorem noteNomination (msg : StunMessage) (idx : Nat) (hstate : a.state = .completed) :
    Settled a (a.noteNomination msg idx) := by
  rw [noteNomination_eq]
  refine ⟨hstate, rfl, fun i p hp => ?_⟩
  simp only [List.getElem?_modify, hp]
  split <;> exact ⟨_, rfl, rfl, rfl⟩

theorem onPair (msg : StunMessage) (source localAddr : SocketAddr) (clock : Nat)
    (hstate : a.state = .completed) : Settled a (a.onPair msg source localAddr clock) := by
  obtain hsame | ⟨idx, p, hp, -, -, hcases⟩ := onPair_cases a msg source localAddr clock
  · rw [hsame]
    exact of_sameCore (.refl a) hstate rfl
  · have hnoted := noteNomination msg idx hstate
    obtain ⟨-, -, heq⟩ | ⟨-, heq⟩ | ⟨-, heq⟩ | ⟨-, -, heq⟩ := hcases
    · have hnominate : (a.noteNomination msg idx).nominate idx clock = a.noteNomination msg idx :=
        if_pos hnoted.state
      rw [heq, hnominate]
      exact hnoted.revive
    · rw [heq]
      exact hnoted.revive
    · rw [heq]
      exact revive ⟨hnoted.state, hnoted.selected, hnoted.pairs⟩
    · rw [heq]
      have hcore := SameCore.of_frame
        (frame_setPairState (a.noteNomination msg idx) idx .waiting)
      have hset := hnoted.trans (of_sameCore hcore hnoted.state rfl)
      exact revive ⟨hset.state, hset.selected, hset.pairs⟩

theorem handle (hmac : Hmac) (hstate : a.state = .completed) (hpending : a.pending = []) (e : Event) :
    Settled a (a.handle hmac e) := by
  have hself := of_sameCore (.refl a) hstate rfl
  cases e with
  | tick now tid =>
    obtain ⟨last, hkept⟩ := tickAt_idle hmac (a := a) (by rw [hstate]; decide) now tid
    rw [IceAgent.handle, hkept]
    exact ⟨hself.state, hself.selected, hself.pairs⟩
  | addRemote c =>
    obtain hsame | hgrows := addRemoteCandidate_cases a c
    · rwa [IceAgent.handle, hsame]
    · exact of_grows hgrows hstate
  | datagram raw source localAddr clock =>
    -- nothing is under way, so no response can be matched
    have hnone : ∀ {tid : TransactionId} {x}, a.takePending tid ≠ some x := by
      intro tid ⟨c, taken⟩ htaken
      obtain ⟨hmem, -⟩ := frame_takePending htaken
      simp [hpending] at hmem
    obtain hsame | ⟨msg, -, ⟨-, a₁, -, -, hrole, hdone⟩ | ⟨-, c, taken, pair, htaken, -⟩ |
      ⟨-, c, taken, htaken, -⟩⟩ := handleDatagramAt_cases a raw source localAddr clock
    · rwa [IceAgent.handle, hsame]
    · rw [IceAgent.handle, hdone]
      have h₁ : Settled a a₁ := by
        obtain rfl | ⟨-, rfl, -⟩ | ⟨-, rfl, -⟩ := resolveRole_cases hrole
        · exact hself
        · exact of_sameCore (sameCore_switchRole a _) hstate rfl
        · exact of_sameCore (sameCore_switchRole a _) hstate rfl
      have h₂ : Settled a (a₁.learnRemotePrflx msg source localAddr) := by
        obtain hsame | ⟨there, hgrows, -⟩ := learnRemotePrflx_cases a₁ msg source localAddr
        · rwa [hsame]
        · exact h₁.trans (of_grows hgrows h₁.state)
      exact h₂.trans (onPair msg source localAddr clock h₂.state)
    · exact absurd htaken hnone
    · exact absurd htaken hnone

end Settled

/-! ## runs -/

/-- An agent that has just been made. -/
def Watched.new (params : IceParams) (locals remotes : List IceCandidate)
    (sockets : List SocketAddr) : Watched :=
  ⟨.new params locals remotes sockets, []⟩

/-- What every call keeps. -/
structure Watched.Inv (hmac : Hmac) (w : Watched) : Prop where
  traced : Traced hmac w.past w.agent
  settled : ∀ x ∈ w.past, x.1.state = .completed →
    Settled x.1 w.agent ∧ ∃ i p, x.1.selected = some i ∧ x.1.pairs[i]? = some p

variable {w : Watched}

theorem Watched.Inv.step {w' : Watched} {e : Event} (h : w.Inv hmac)
    (hok : NominatesControlling w e) (hstep : w.step hmac e = some w') : w'.Inv hmac := by
  cases hstep
  refine ⟨h.traced.handle hok, ?_⟩
  have hnow : w.agent.state = .completed → Settled w.agent (w.agent.handle hmac e) ∧
      ∃ i p, w.agent.selected = some i ∧ w.agent.pairs[i]? = some p := by
    intro hstate
    obtain ⟨hopen, -⟩ | ⟨-, hpending, i, p, hi, hp, -⟩ := h.traced.selected
    · exact absurd hstate hopen
    · exact ⟨.handle hmac hstate hpending e, i, p, hi, hp⟩
  intro x hx hstate
  obtain hbefore | hlast := List.mem_append.mp hx
  · obtain ⟨hsettled, hpair⟩ := h.settled x hbefore hstate
    exact ⟨hsettled.trans (hnow hsettled.state).1, hpair⟩
  · obtain rfl := List.mem_singleton.mp hlast
    exact hnow hstate

theorem Watched.Inv.nominationSound (h : w.Inv hmac) : NominationSound hmac w where
  completed := by
    obtain ⟨hopen, hnone⟩ | ⟨hstate, -, i, p, hi, hp, -⟩ := h.traced.selected
    · simp [hopen, selectedPair, hnone]
    · simp [hstate, selectedPair, hi, hp]
  selected p hp := by
    obtain ⟨-, hnone⟩ | ⟨-, -, i, p', hi, hp', hrest⟩ := h.traced.selected
    · simp [selectedPair, hnone] at hp
    · obtain rfl : p' = p := by simpa [selectedPair, hi, hp'] using hp
      exact hrest
  stable x hx hstate := by
    obtain ⟨hsettled, i, p, hi, hp⟩ := h.settled x hx hstate
    obtain ⟨p', hp', hlocal, hremote⟩ := hsettled.pairs i p hp
    refine ⟨hsettled.state, hsettled.selected, ?_⟩
    simp [selectedPair, hsettled.selected, hi, hp, hp', hlocal, hremote]

theorem nominationSound_of_nominatesControlling (hmac : Hmac) (params : IceParams)
    (locals remotes : List IceCandidate) (sockets : List SocketAddr) (es : List Event) (w : Watched)
    (hexec : exec (Watched.step hmac) (.new params locals remotes sockets) es = some w)
    (hmeets : Meets (Watched.step hmac) NominatesControlling (.new params locals remotes sockets) es) :
    NominationSound hmac w := by
  have hinv : w.Inv hmac := exec_invariant_of_meets
    (fun w e w' h hok hstep => Watched.Inv.step h hok hstep) hexec hmeets
    ⟨.new params locals remotes sockets, by simp [Watched.new]⟩
  exact hinv.nominationSound

/-- A check that succeeds, and the nominating check after it. -/
def sampleNomination : List Event :=
  [.tick 0 (sampleTid 1), .datagram (sampleSuccess 1) (sampleAddr 2) (sampleAddr 1) 0,
    .tick CHECK_PACING (sampleTid 2), .datagram (sampleSuccess 2) (sampleAddr 2) (sampleAddr 1) 0]

/-- The controlling agent completes. -/
theorem nominationSound_sampleNomination :
    ∃ w, exec (Watched.step sampleHmac) (.new (sampleParams .controlling 5) [sampleCandidate 1 100]
        [sampleCandidate 2 100] [sampleAddr 1]) sampleNomination = some w ∧
      w.agent.state = .completed ∧ NominationSound sampleHmac w :=
  ⟨_, rfl, by decide +kernel,
    nominationSound_of_nominatesControlling sampleHmac _ _ _ _ sampleNomination _ rfl
      (by decide +kernel)⟩

/-! ## a role given up between queueing and sending -/

/-- The datagram is a request with USE-CANDIDATE. -/
def usesCandidate (raw : Bytes) : Bool :=
  match decode raw with
  | .ok msg => decide (msg.kind = .request) && msg.useCandidate
  | .error _ => false

/-- A request with USE-CANDIDATE came in or went out with the call. -/
def movesUse (hmac : Hmac) (x : IceAgent × Event) : Bool :=
  match x.2 with
  | .tick now tid => (x.1.tickAt hmac now tid).2.any fun o => usesCandidate o.bytes
  | .datagram raw _ _ _ => usesCandidate raw
  | .addRemote _ => false

theorem any_movesUse (h : AskedFor hmac past here there ∨ ConfirmedFor hmac past here there) :
    past.any (movesUse hmac) = true := by
  rw [List.any_eq_true]
  obtain ⟨a, raw, clock, msg, a₁, hmem, hdecode, hkind, huse, -⟩ |
    ⟨before, a, raw, clock, after, msg, rfl, -, -, -, -, a', now, tid', o, msg', hmem, hout, -, -,
      hdecode, hkind, huse, -⟩ := h
  · exact ⟨_, hmem, by simp [movesUse, usesCandidate, hdecode, hkind, huse]⟩
  · refine ⟨_, List.mem_append_left _ hmem, ?_⟩
    simp only [movesUse, List.any_eq_true]
    exact ⟨o, hout, by simp [usesCandidate, hdecode, hkind, huse]⟩

/-- The nomination is queued, the role is given up to the peer, and the check
that goes out then carries no USE-CANDIDATE. -/
def sampleGivenUp : List Event :=
  [.tick 0 (sampleTid 1), .datagram (sampleSuccess 1) (sampleAddr 2) (sampleAddr 1) 0,
    .datagram (sampleRequest 9 fun m => { m with iceControlling := some 9 }) (sampleAddr 2)
      (sampleAddr 1) 0,
    .tick CHECK_PACING (sampleTid 2), .datagram (sampleSuccess 2) (sampleAddr 2) (sampleAddr 1) 0]

/-- Its response nominates the pair all the same. -/
theorem nominated_without_useCandidate :
    ¬ ∀ (hmac : Hmac) (params : IceParams) (locals remotes : List IceCandidate)
      (sockets : List SocketAddr) (es : List Event) (w : Watched),
      exec (Watched.step hmac) (.new params locals remotes sockets) es = some w →
      NominationSound hmac w := by
  intro h
  have hsound := h sampleHmac (sampleParams .controlling 5) [sampleCandidate 1 100]
    [sampleCandidate 2 100] [sampleAddr 1] sampleGivenUp _ rfl
  obtain ⟨p, hp⟩ := hsound.completed.mp (by decide +kernel)
  obtain ⟨-, -, horigin⟩ := hsound.selected p hp
  have hany := any_movesUse horigin
  revert hany
  decide +kernel

end SmithsNet.Ice
