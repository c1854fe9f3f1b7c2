import Mathlib
import SmithsNet.Ice.Agent
import SmithsNet.Ice.Codec

/-!
# SmithsNet.Ice.Steps

What the calls of an ICE agent can do to it, said once: a `Frame` lemma for
each function that only moves pair states and checks, `Grows` for a candidate
that is added, and one lemma for each kind of datagram with the ways it can be
handled.
-/

namespace SmithsNet.Ice

open Lib SmithsNet.Core

/-- The pair but for its state. -/
def IcePair.stateless (p : IcePair) : IcePair := { p with state := .frozen }

/-- The agents differ in the states of pairs, in the checks under way and in
timers. -/
structure Frame (a a' : IceAgent) : Prop where
  params : a'.params = a.params
  role : a'.role = a.role
  sockets : a'.sockets = a.sockets
  localCandidates : a'.localCandidates = a.localCandidates
  remoteCandidates : a'.remoteCandidates = a.remoteCandidates
  selected : a'.selected = a.selected
  shape : a'.pairs.map IcePair.stateless = a.pairs.map IcePair.stateless

namespace Frame

theorem refl (a : IceAgent) : Frame a a := ⟨rfl, rfl, rfl, rfl, rfl, rfl, rfl⟩

theorem trans {a₁ a₂ a₃ : IceAgent} (h : Frame a₁ a₂) (h' : Frame a₂ a₃) : Frame a₁ a₃ :=
  ⟨h'.params.trans h.params, h'.role.trans h.role, h'.sockets.trans h.sockets,
    h'.localCandidates.trans h.localCandidates, h'.remoteCandidates.trans h.remoteCandidates,
    h'.selected.trans h.selected, h'.shape.trans h.shape⟩

theorem pair {a a' : IceAgent} (h : Frame a a') {i : Nat} {p' : IcePair}
    (hp' : a'.pairs[i]? = some p') : ∃ p, a.pairs[i]? = some p ∧ p'.stateless = p.stateless := by
  have hshape := congrArg (·[i]?) h.shape
  simp only [List.getElem?_map, hp', Option.map_some] at hshape
  obtain ⟨p, hp, hsame⟩ := Option.map_eq_some_iff.mp hshape.symm
  exact ⟨p, hp, hsame.symm⟩

end Frame

namespace IceAgent

variable (hmac : Hmac) {a : IceAgent}

/-! ## checks -/

section

variable (a : IceAgent)

theorem frame_setPairState (idx : Nat) (state : PairState) :
    Frame a (a.setPairState idx state) := by
  refine ⟨rfl, rfl, rfl, rfl, rfl, rfl, ?_⟩
  apply List.ext_getElem?
  intro i
  simp only [setPairState, List.getElem?_map, List.getElem?_modify]
  split
  · cases a.pairs[i]? <;> rfl
  · cases a.pairs[i]? <;> rfl

theorem frame_endNomination (c : PendingCheck) :
    Frame a (a.endNomination c) ∧ (a.endNomination c).pairs = a.pairs ∧
      (a.endNomination c).pending = a.pending ∧ (a.endNomination c).triggered = a.triggered ∧
      (a.endNomination c).state = a.state ∧ (a.endNomination c).lastCheckSent = a.lastCheckSent := by
  unfold endNomination
  split <;> exact ⟨⟨rfl, rfl, rfl, rfl, rfl, rfl, rfl⟩, rfl, rfl, rfl, rfl, rfl⟩

theorem frame_expire (c : PendingCheck) :
    Frame a (a.expire c) ∧ (a.expire c).pending = a.pending ∧ (a.expire c).triggered = a.triggered ∧
      (a.expire c).state = a.state ∧ (a.expire c).lastCheckSent = a.lastCheckSent := by
  unfold expire
  dsimp only
  split
  · obtain ⟨hframe, -, hrest⟩ := frame_endNomination (a.setPairState c.pairIdx .failed) c
    exact ⟨(frame_setPairState a c.pairIdx .failed).trans hframe, hrest⟩
  · obtain ⟨hframe, -, hrest⟩ := frame_endNomination a c
    exact ⟨hframe, hrest⟩

theorem frame_foldl_expire (cs : List PendingCheck) :
    Frame a (cs.foldl expire a) ∧ (cs.foldl expire a).pending = a.pending ∧
      (cs.foldl expire a).triggered = a.triggered ∧ (cs.foldl expire a).state = a.state ∧
      (cs.foldl expire a).lastCheckSent = a.lastCheckSent := by
  induction cs generalizing a with
  | nil => exact ⟨.refl a, rfl, rfl, rfl, rfl⟩
  | cons c cs ih =>
    obtain ⟨hframe, hpending, htriggered, hstate, hlast⟩ := frame_expire a c
    obtain ⟨hframe', hpending', htriggered', hstate', hlast'⟩ := ih (a.expire c)
    exact ⟨hframe.trans hframe', hpending'.trans hpending, htriggered'.trans htriggered,
      hstate'.trans hstate, hlast'.trans hlast⟩

theorem frame_retransmit (now : Nat) : Frame a (a.retransmit now).1 ∧
      (a.retransmit now).1.pending =
        (a.pending.filter fun c => !c.lost now).map (PendingCheck.resend · now) ∧
      (a.retransmit now).1.triggered = a.triggered ∧ (a.retransmit now).1.state = a.state ∧
      (a.retransmit now).1.lastCheckSent = a.lastCheckSent := by
  obtain ⟨hframe, hrest⟩ := frame_foldl_expire
    { a with pending := (a.pending.filter fun c => !c.lost now).map (PendingCheck.resend · now) }
    (a.pending.filter fun c => c.lost now).reverse
  exact ⟨⟨hframe.params, hframe.role, hframe.sockets, hframe.localCandidates,
    hframe.remoteCandidates, hframe.selected, hframe.shape⟩, hrest⟩

end

theorem request_resend (c : PendingCheck) (now : Nat) :
    (c.resend now).request = c.request ∧ (c.resend now).pairIdx = c.pairIdx ∧
      (c.resend now).nominating = c.nominating := by
  unfold PendingCheck.resend
  split <;> exact ⟨rfl, rfl, rfl⟩

section

variable (a : IceAgent)

/-- The next triggered check is one of the queue, and can be sent; only the
queue changes. -/
theorem nextTriggered_spec : ∃ dropped, (∀ e ∈ dropped, a.sendable e = false) ∧
      ((a.nextTriggered = (none, { a with triggered := [] }) ∧ a.triggered = dropped) ∨
        ∃ e rest, a.triggered = dropped ++ e :: rest ∧ a.sendable e = true ∧
          a.nextTriggered = (some e, { a with triggered := rest })) := by
  refine ⟨a.triggered.takeWhile fun e => !a.sendable e, ?_, ?_⟩
  · intro e he
    simpa using List.mem_takeWhile_imp he
  · have hsplit := List.takeWhile_append_dropWhile (p := fun e => !a.sendable e) (l := a.triggered)
    unfold nextTriggered
    split
    · next hnil =>
      rw [hnil, List.append_nil] at hsplit
      exact .inl ⟨rfl, hsplit.symm⟩
    · next e rest hcons =>
      refine .inr ⟨e, rest, by rw [← hcons, hsplit], ?_, rfl⟩
      have hhead := List.head_dropWhile_not (fun e => !a.sendable e) (l := a.triggered) (by simp [hcons])
      simpa [hcons] using hhead

theorem nextCheck_spec :
    ∃ rest, (∀ e ∈ rest, e ∈ a.triggered) ∧ a.nextCheck.2 = { a with triggered := rest } ∧
      (a.nextCheck.1 = none ∨ (∃ idx, a.nextOrdinary = some idx ∧ a.nextCheck.1 = some (idx, false)) ∨
        ∃ e ∈ a.triggered, a.sendable e = true ∧ a.nextCheck.1 = some e) := by
  obtain ⟨dropped, -, ⟨hnext, -⟩ | ⟨e, rest, hqueue, hsend, hnext⟩⟩ := nextTriggered_spec a
  · refine ⟨[], by simp, by simp [nextCheck, hnext], ?_⟩
    simp only [nextCheck, hnext]
    have hordinary : ({ a with triggered := [] } : IceAgent).nextOrdinary = a.nextOrdinary := rfl
    rw [hordinary]
    cases a.nextOrdinary with
    | none => exact .inl rfl
    | some idx => exact .inr (.inl ⟨idx, rfl, rfl⟩)
  · refine ⟨rest, by simp +contextual [hqueue], by simp [nextCheck, hnext], .inr (.inr ⟨e, ?_, hsend, ?_⟩)⟩
    · simp [hqueue]
    · simp [nextCheck, hnext]

/-- A check is not sent for want of a socket, or because it does not fit; or it
is, and waits for its response. -/
theorem sendCheck_cases (idx : Nat) (nominate : Bool) (now : Nat) (tid : TransactionId) :
    a.sendCheck hmac idx nominate now tid = (a, none) ∨
      ∃ pair bytes, a.pairs[idx]? = some pair ∧ pair.localAddr ∈ a.sockets ∧
        (a.checkMessage pair nominate tid).encodeWith hmac (some a.remoteKey) true = .ok bytes ∧
        a.sendCheck hmac idx nominate now tid =
          ({ (if pair.state ≠ .succeeded then a.setPairState idx .inProgress else a) with
            pending := a.pending ++ [a.newCheck idx pair nominate now tid bytes]
            lastCheckSent := some now },
          some (a.newCheck idx pair nominate now tid bytes).outgoing) := by
  unfold sendCheck
  split
  · exact .inl rfl
  · next pair hpair =>
    split
    · exact .inl rfl
    · next hsocket =>
      split
      · exact .inl rfl
      · next bytes hbytes =>
        refine .inr ⟨pair, bytes, hpair, not_not.mp hsocket, hbytes, ?_⟩
        by_cases hstate : pair.state = .succeeded <;> simp [hstate, setPairState]

/-- The check a tick starts is queued or waiting, and goes out with the tick. -/
theorem startCheck_cases (now : Nat) (tid : TransactionId) :
    (∃ rest, (∀ e ∈ rest, e ∈ a.triggered) ∧
        a.startCheck hmac now tid = ({ a with triggered := rest }, [])) ∨
      ∃ rest idx nominate pair bytes, (∀ e ∈ rest, e ∈ a.triggered) ∧
        a.nextCheck.1 = some (idx, nominate) ∧ a.pairs[idx]? = some pair ∧
        pair.localAddr ∈ a.sockets ∧
        (a.checkMessage pair nominate tid).encodeWith hmac (some a.remoteKey) true = .ok bytes ∧
        a.startCheck hmac now tid =
          ({ (if pair.state ≠ .succeeded then a.setPairState idx .inProgress else a) with
            triggered := rest
            pending := a.pending ++ [a.newCheck idx pair nominate now tid bytes]
            lastCheckSent := some now },
          [(a.newCheck idx pair nominate now tid bytes).outgoing]) := by
  obtain ⟨rest, hrest, hqueue, -⟩ := nextCheck_spec a
  unfold startCheck
  split
  · next a' hnext =>
    obtain rfl : a.nextCheck.2 = a' := by rw [hnext]
    exact .inl ⟨rest, hrest, by rw [hqueue]⟩
  · next idx nominate a' hnext =>
    obtain rfl : a.nextCheck.2 = a' := by rw [hnext]
    rw [hqueue]
    obtain hnone | ⟨pair, bytes, hpair, hsocket, hbytes, hsent⟩ :=
      sendCheck_cases hmac { a with triggered := rest } idx nominate now tid
    · exact .inl ⟨rest, hrest, by rw [hnone]; rfl⟩
    · refine .inr ⟨rest, idx, nominate, pair, bytes, hrest, by rw [hnext], hpair, hsocket, hbytes, ?_⟩
      rw [hsent]
      by_cases hdone : pair.state = .succeeded
      · simp only [hdone, ne_eq, not_true_eq_false, if_false]
        rfl
      · simp only [hdone, ne_eq, not_false_eq_true, if_true]
        rfl

theorem frame_updateFailure :
    Frame a a.updateFailure ∧ a.updateFailure.pairs = a.pairs ∧ a.updateFailure.pending = a.pending ∧
      a.updateFailure.triggered = a.triggered ∧
      a.updateFailure.nominationInFlight = a.nominationInFlight ∧
      (a.updateFailure.state = a.state ∨ a.state = .checking ∧ a.updateFailure.state = .failed) := by
  unfold updateFailure
  split
  · exact ⟨.refl a, rfl, rfl, rfl, rfl, .inl rfl⟩
  · next hchecking =>
    split
    · exact ⟨.refl a, rfl, rfl, rfl, rfl, .inl rfl⟩
    · refine ⟨⟨rfl, rfl, rfl, rfl, rfl, rfl, rfl⟩, rfl, rfl, rfl, rfl, .inr ⟨?_, rfl⟩⟩
      simp only [not_or, not_not] at hchecking
      exact hchecking.1

theorem frame_ended (c : PendingCheck) : Frame a (a.endNomination c).updateFailure ∧
      (a.endNomination c).updateFailure.pairs = a.pairs ∧
      (a.endNomination c).updateFailure.pending = a.pending ∧
      (a.endNomination c).updateFailure.triggered = a.triggered ∧
      ((a.endNomination c).updateFailure.state = a.state ∨
        a.state = .checking ∧ (a.endNomination c).updateFailure.state = .failed) := by
  obtain ⟨hframe, hpairs, hpending, htriggered, hstate, -⟩ := frame_endNomination a c
  obtain ⟨hframe', hpairs', hpending', htriggered', -, hstate'⟩ := frame_updateFailure (a.endNomination c)
  rw [hstate] at hstate'
  exact ⟨hframe.trans hframe', hpairs'.trans hpairs, hpending'.trans hpending,
    htriggered'.trans htriggered, hstate'⟩

theorem keepalive_cases (now : Nat) (tid : TransactionId) :
    ∃ last out, a.keepalive hmac now tid = ({ a with lastKeepalive := last }, out) := by
  unfold keepalive
  split
  · exact ⟨a.lastKeepalive, [], rfl⟩
  · split
    · exact ⟨a.lastKeepalive, [], rfl⟩
    · split
      · exact ⟨a.lastKeepalive, [], rfl⟩
      · split
        · exact ⟨a.lastKeepalive, [], rfl⟩
        · exact ⟨_, _, rfl⟩

end

theorem tickAt_checking (h : a.state = .checking) (now : Nat) (tid : TransactionId) :
    ∃ a₁ new, a.tickAt hmac now tid = (a₁.updateFailure, (a.retransmit now).2 ++ new) ∧
      ((a₁, new) = ((a.retransmit now).1, []) ∧ (a.retransmit now).1.paced now = false ∨
        (a₁, new) = (a.retransmit now).1.startCheck hmac now tid ∧
          (a.retransmit now).1.paced now = true) := by
  unfold tickAt
  rw [h]
  dsimp only
  cases hpaced : (a.retransmit now).1.paced now with
  | true => exact ⟨_, _, rfl, .inr ⟨rfl, rfl⟩⟩
  | false => exact ⟨_, _, rfl, .inl ⟨rfl, rfl⟩⟩

/-- A tick of an agent that does not check sends a keepalive at most. -/
theorem tickAt_idle (h : a.state ≠ .checking) (now : Nat) (tid : TransactionId) :
    ∃ last, (a.tickAt hmac now tid).1 = { a with lastKeepalive := last } := by
  unfold tickAt
  split
  · exact ⟨a.lastKeepalive, rfl⟩
  · obtain ⟨last, out, hkeep⟩ := keepalive_cases hmac a now tid
    exact ⟨last, congrArg Prod.fst hkeep⟩
  · next hchecking => exact absurd hchecking h

theorem frame_startCheck (a : IceAgent) (now : Nat) (tid : TransactionId) :
    Frame a (a.startCheck hmac now tid).1 ∧ (a.startCheck hmac now tid).1.state = a.state ∧
      (∀ e ∈ (a.startCheck hmac now tid).1.triggered, e ∈ a.triggered) ∧
      (a.startCheck hmac now tid).1.nominationInFlight = a.nominationInFlight := by
  obtain ⟨rest, hrest, hnone⟩ | ⟨rest, idx, nominate, pair, bytes, hrest, -, -, -, -, hsent⟩ :=
    startCheck_cases hmac a now tid
  · rw [hnone]
    exact ⟨⟨rfl, rfl, rfl, rfl, rfl, rfl, rfl⟩, rfl, hrest, rfl⟩
  · rw [hsent]
    have hframe : Frame a (if pair.state ≠ .succeeded then a.setPairState idx .inProgress else a) := by
      split
      · exact frame_setPairState a idx .inProgress
      · exact .refl a
    refine ⟨⟨hframe.params, hframe.role, hframe.sockets, hframe.localCandidates,
      hframe.remoteCandidates, hframe.selected, hframe.shape⟩, ?_, hrest, ?_⟩ <;> split <;> rfl

theorem frame_tickAt (a : IceAgent) (now : Nat) (tid : TransactionId) :
    Frame a (a.tickAt hmac now tid).1 ∧
      ((a.tickAt hmac now tid).1.state = a.state ∨
        a.state = .checking ∧ (a.tickAt hmac now tid).1.state = .failed) ∧
      ∀ e ∈ (a.tickAt hmac now tid).1.triggered, e ∈ a.triggered := by
  cases hstate : a.state with
  | failed =>
    have hsame : a.tickAt hmac now tid = (a, []) := by simp [tickAt, hstate]
    rw [hsame]
    exact ⟨.refl a, .inl hstate, fun _ h => h⟩
  | completed =>
    obtain ⟨last, out, hkeep⟩ := keepalive_cases hmac a now tid
    have hsame : a.tickAt hmac now tid = ({ a with lastKeepalive := last }, out) := by
      simp [tickAt, hstate, hkeep]
    rw [hsame]
    exact ⟨⟨rfl, rfl, rfl, rfl, rfl, rfl, rfl⟩, .inl hstate, fun _ h => h⟩
  | checking =>
    obtain ⟨hframe, -, htriggered, hkept, -⟩ := frame_retransmit a now
    obtain ⟨a₁, new, htick, hstart⟩ := tickAt_checking hmac hstate now tid
    have hstarted : Frame (a.retransmit now).1 a₁ ∧ a₁.state = (a.retransmit now).1.state ∧
        ∀ e ∈ a₁.triggered, e ∈ (a.retransmit now).1.triggered := by
      obtain ⟨heq, -⟩ | ⟨heq, -⟩ := hstart
      · obtain ⟨rfl, rfl⟩ := Prod.mk.inj heq
        exact ⟨.refl _, rfl, fun _ h => h⟩
      · obtain ⟨hframe', hstate', htriggered', -⟩ :=
          frame_startCheck hmac (a.retransmit now).1 now tid
        rw [← heq] at hframe' hstate' htriggered'
        exact ⟨hframe', hstate', htriggered'⟩
    obtain ⟨hframe₁, hstate₁, htriggered₁⟩ := hstarted
    obtain ⟨hframe₂, -, -, htriggered₂, -, hstate₂⟩ := frame_updateFailure a₁
    rw [htick]
    refine ⟨(hframe.trans hframe₁).trans hframe₂, ?_, ?_⟩
    · have hsame : a₁.state = .checking := (hstate₁.trans hkept).trans hstate
      rwa [hsame] at hstate₂
    · intro e he
      rw [htriggered₂] at he
      rw [← htriggered]
      exact htriggered₁ e he

variable {tid : TransactionId}

theorem decode_check {pair : IcePair} {nominate : Bool} {key bytes : Bytes}
    (h : (a.checkMessage pair nominate tid).encodeWith hmac (some key) true = .ok bytes) :
    ∃ msg, decode bytes = .ok msg ∧ msg.kind = .request ∧ msg.transactionId = tid ∧
      msg.useCandidate = (nominate && decide (a.role = .controlling)) ∧
      msg.iceControlling = (if a.role = .controlling then some a.params.tieBreaker else none) ∧
      msg.iceControlled = (if a.role = .controlled then some a.params.tieBreaker else none) := by
  refine ⟨_, decode_encodeWith h ?_, ?_⟩
  · cases hrole : a.role <;> simp [checkMessage, hrole, StunMessage.newBindingRequest]
  · cases hrole : a.role <;>
      simp [checkMessage, hrole, StunMessage.newBindingRequest, StunMessage.received]

/-- A check that is pending after a tick was so before, or has just gone out. -/
theorem pending_tickAt {now : Nat} {c' : PendingCheck}
    (h : c' ∈ (a.tickAt hmac now tid).1.pending) :
    (∃ c ∈ a.pending, c'.request = c.request ∧ c'.pairIdx = c.pairIdx ∧
        c'.nominating = c.nominating) ∨
      ∃ idx nominate pair bytes, a.state = .checking ∧ (a.retransmit now).1.paced now = true ∧
        a.nextAt now = some (idx, nominate) ∧ (a.retransmit now).1.pairs[idx]? = some pair ∧
        (a.checkMessage pair nominate tid).encodeWith hmac (some a.remoteKey) true = .ok bytes ∧
        c' = a.newCheck idx pair nominate now tid bytes ∧
        c'.outgoing ∈ (a.tickAt hmac now tid).2 := by
  cases hstate : a.state with
  | failed =>
    have hsame : a.tickAt hmac now tid = (a, []) := by simp [tickAt, hstate]
    rw [hsame] at h
    exact .inl ⟨c', h, rfl, rfl, rfl⟩
  | completed =>
    obtain ⟨last, out, hkeep⟩ := keepalive_cases hmac a now tid
    have hsame : a.tickAt hmac now tid = ({ a with lastKeepalive := last }, out) := by
      simp [tickAt, hstate, hkeep]
    rw [hsame] at h
    exact .inl ⟨c', h, rfl, rfl, rfl⟩
  | checking =>
    obtain ⟨hframe, hpending, -, -, -⟩ := frame_retransmit a now
    obtain ⟨a₁, new, htick, hstart⟩ := tickAt_checking hmac hstate now tid
    have hresent : c' ∈ (a.retransmit now).1.pending →
        ∃ c ∈ a.pending, c'.request = c.request ∧ c'.pairIdx = c.pairIdx ∧
          c'.nominating = c.nominating := by
      intro hc
      rw [hpending] at hc
      obtain ⟨c, hkept, rfl⟩ := List.mem_map.mp hc
      exact ⟨c, List.mem_of_mem_filter hkept, request_resend c now⟩
    rw [htick, (frame_updateFailure a₁).2.2.1] at h
    obtain ⟨heq, -⟩ | ⟨heq, hpaced⟩ := hstart
    · obtain ⟨rfl, rfl⟩ := Prod.mk.inj heq
      exact .inl (hresent h)
    · obtain ⟨rest, -, hnone⟩ | ⟨rest, idx, nominate, pair, bytes, -, hnext, hpair, -, hbytes, hsent⟩ :=
        startCheck_cases hmac (a.retransmit now).1 now tid
      · obtain ⟨rfl, rfl⟩ := Prod.mk.inj (heq.trans hnone)
        exact .inl (hresent h)
      · obtain ⟨rfl, rfl⟩ := Prod.mk.inj (heq.trans hsent)
        obtain hold | hnew := List.mem_append.mp h
        · exact .inl (hresent hold)
        · have hcheck : (a.retransmit now).1.newCheck idx pair nominate now tid bytes =
              a.newCheck idx pair nominate now tid bytes := by
            simp only [newCheck, checkMessage, checkUsername, hframe.role, hframe.params]
          rw [hcheck] at hnew
          obtain rfl := List.mem_singleton.mp hnew
          refine .inr ⟨idx, nominate, pair, bytes, rfl, hpaced, hnext, hpair, ?_, rfl, ?_⟩
          · simpa only [checkMessage, checkUsername, remoteKey, hframe.role, hframe.params] using hbytes
          · rw [htick, hcheck]
            exact List.mem_append_right _ (List.mem_singleton.mpr rfl)

/-! ## candidates -/

end IceAgent

/-- A pair that was just formed. -/
structure IcePair.Fresh (p : IcePair) (locals : List IceCandidate) (there : IceCandidate) : Prop where
  state : p.state = .waiting
  nominated : p.nominated = false
  nominateRequested : p.nominateRequested = false
  mem : p.localCand ∈ locals
  remote : p.remoteCand = there
  component : p.localCand.component = there.component
  family : p.localCand.address.isIpv4 = there.address.isIpv4

/-- The agents differ in pairs with a new remote candidate; a failed one is
checking again. -/
structure Grows (there : IceCandidate) (a a' : IceAgent) : Prop where
  params : a'.params = a.params
  role : a'.role = a.role
  sockets : a'.sockets = a.sockets
  localCandidates : a'.localCandidates = a.localCandidates
  pending : a'.pending = a.pending
  triggered : a'.triggered = a.triggered
  selected : a'.selected = a.selected
  nominationInFlight : a'.nominationInFlight = a.nominationInFlight
  lastCheckSent : a'.lastCheckSent = a.lastCheckSent
  state : a'.state = a.state ∨ a.state = .failed ∧ a'.state = .checking
  pairs : ∃ new, a'.pairs = a.pairs ++ new ∧ ∀ p ∈ new, p.Fresh a.localCandidates there

namespace IceAgent

variable {hmac : Hmac}

theorem revive_eq (a : IceAgent) :
    a.revive = a ∨ a.state = .failed ∧ a.revive = { a with state := .checking, failure := none } := by
  unfold revive
  split
  · next hfailed => exact .inr ⟨hfailed, rfl⟩
  · exact .inl rfl

variable {a' a taken : IceAgent} {there : IceCandidate} {c : PendingCheck} {tid : TransactionId}

theorem grows_revive (h : Grows there a a') : Grows there a a'.revive := by
  obtain hsame | ⟨hfailed, hrevived⟩ := revive_eq a'
  · rw [hsame]
    exact h
  · rw [hrevived]
    obtain hstate | ⟨-, hchecking⟩ := h.state
    · exact { h with state := .inr ⟨hstate.symm.trans hfailed, rfl⟩ }
    · rw [hchecking] at hfailed
      contradiction

theorem grows_formPair {here : IceCandidate} (h : Grows there a a')
    (hhere : here ∈ a.localCandidates) : Grows there a (a'.formPair here there) := by
  unfold formPair
  split
  · exact h
  · next hfit =>
    simp only [not_or, not_not] at hfit
    split
    · exact h
    · obtain ⟨new, hpairs, hnew⟩ := h.pairs
      refine { h with pairs := ⟨new ++ [_], by rw [hpairs, List.append_assoc], ?_⟩ }
      intro p hp
      obtain hp | hp := List.mem_append.mp hp
      · exact hnew p hp
      · obtain rfl := List.mem_singleton.mp hp
        exact ⟨rfl, rfl, rfl, hhere, rfl, hfit.1, hfit.2⟩

theorem grows_foldl_formPair (locals : List IceCandidate)
    (h : Grows there a a') (hlocals : ∀ c ∈ locals, c ∈ a.localCandidates) :
    Grows there a (locals.foldl (fun a here => a.formPair here there) a') := by
  induction locals generalizing a' with
  | nil => exact h
  | cons c locals ih =>
    obtain ⟨hc, hlocals⟩ := List.forall_mem_cons.mp hlocals
    exact ih (grows_formPair h hc) hlocals

theorem addRemoteCandidate_cases (a : IceAgent) (there : IceCandidate) :
    a.addRemoteCandidate there = a ∨ Grows there a (a.addRemoteCandidate there) := by
  unfold addRemoteCandidate
  split
  · exact .inl rfl
  · right
    have hstart : Grows there a { a with remoteCandidates := a.remoteCandidates ++ [there] } :=
      ⟨rfl, rfl, rfl, rfl, rfl, rfl, rfl, rfl, rfl, .inl rfl, [], (List.append_nil _).symm, by simp⟩
    have hgrown := grows_foldl_formPair a.localCandidates hstart fun _ h => h
    exact grows_revive hgrown

theorem learnRemotePrflx_cases (a : IceAgent) (msg : StunMessage) (source localAddr : SocketAddr) :
    a.learnRemotePrflx msg source localAddr = a ∨
      ∃ there, Grows there a (a.learnRemotePrflx msg source localAddr) ∧
        there.address = source.ip ∧ there.port = source.port ∧
        there.component = ((a.localCandidates.find? fun c => decide (c.addr = localAddr)).map
          IceCandidate.component).getD 1 := by
  unfold learnRemotePrflx
  dsimp only
  split
  · exact .inl rfl
  · obtain hsame | hgrown := addRemoteCandidate_cases a
      { foundation := "prflx" ++ toString a.remoteCandidates.length
        component := ((a.localCandidates.find? fun c => decide (c.addr = localAddr)).map
          IceCandidate.component).getD 1
        transport := "UDP"
        priority := msg.priority.getD 0
        address := source.ip
        port := source.port
        candidateType := "prflx" }
    · exact .inl hsame
    · exact .inr ⟨_, hgrown, rfl, rfl, rfl⟩

/-! ## datagrams -/

theorem findPair_eq_some {here there : SocketAddr} {idx : Nat}
    (h : a.findPair here there = some idx) :
    ∃ p, a.pairs[idx]? = some p ∧ p.localAddr = here ∧ p.remoteAddr = there := by
  obtain ⟨hlt, hp, -⟩ := List.findIdx?_eq_some_iff_getElem.mp h
  simp only [Bool.and_eq_true, decide_eq_true_eq] at hp
  exact ⟨a.pairs[idx], List.getElem?_eq_getElem hlt, hp⟩

/-- A request is refused, or it is authentic and its role wins or gives way. -/
theorem handleRequest_cases (a : IceAgent) (msg : StunMessage) (raw : Bytes)
    (source localAddr : SocketAddr) (clock : Nat) :
    ((a.handleRequest hmac msg raw source localAddr clock).1 = a ∧
        ((a.handleRequest hmac msg raw source localAddr clock).2 = none ∨
          (∃ code reason key, code ≠ ERR_ROLE_CONFLICT ∧
            (a.handleRequest hmac msg raw source localAddr clock).2 = errorReply hmac msg code reason key))) ∨
      (verifyFingerprint raw = true ∧ a.authentic hmac msg raw = true ∧ a.resolveRole msg = none ∧
        a.handleRequest hmac msg raw source localAddr clock =
          (a, errorReply hmac msg ERR_ROLE_CONFLICT "Role Conflict" (some a.localKey))) ∨
      ∃ a₁, verifyFingerprint raw = true ∧ a.authentic hmac msg raw = true ∧
        a.resolveRole msg = some a₁ ∧
        a.handleRequest hmac msg raw source localAddr clock =
          ((a₁.learnRemotePrflx msg source localAddr).onPair msg source localAddr clock,
            ((StunMessage.newBindingResponse msg source).encodeWith hmac
              (some a₁.localKey) true).toOption) := by
  unfold handleRequest
  split
  · exact .inl ⟨rfl, .inl rfl⟩
  · next hfp =>
    simp only [Bool.or_eq_true, Bool.not_eq_true', not_or, Bool.not_eq_false] at hfp
    split
    · exact .inl ⟨rfl, .inr ⟨_, _, _, by decide, rfl⟩⟩
    · split
      · exact .inl ⟨rfl, .inr ⟨_, _, _, by decide, rfl⟩⟩
      · next hauth =>
        simp only [Bool.not_eq_true', Bool.not_eq_false] at hauth
        split
        · next hrole => exact .inr (.inl ⟨hfp.2, hauth, hrole, rfl⟩)
        · next a₁ hrole => exact .inr (.inr ⟨a₁, hfp.2, hauth, hrole, rfl⟩)

theorem resolveRole_cases {a₁ : IceAgent} {msg : StunMessage} (h : a.resolveRole msg = some a₁) :
    a₁ = a ∨
      (a.role = .controlling ∧ a₁ = a.switchRole .controlled ∧
        ∃ theirs, msg.iceControlling = some theirs ∧ a.params.tieBreaker < theirs) ∨
      (a.role = .controlled ∧ a₁ = a.switchRole .controlling ∧
        ∃ theirs, msg.iceControlled = some theirs ∧ theirs ≤ a.params.tieBreaker) := by
  unfold resolveRole at h
  split at h
  · next theirs hrole hmsg =>
    split at h
    · contradiction
    · next hless =>
      exact .inr (.inl ⟨hrole, (Option.some.inj h).symm, theirs, hmsg, UInt64.not_le.mp hless⟩)
  · next theirs hrole hmsg =>
    split at h
    · next hle => exact .inr (.inr ⟨hrole, (Option.some.inj h).symm, theirs, hmsg, hle⟩)
    · contradiction
  · exact .inl (Option.some.inj h).symm

/-- The pair a request is noted on. -/
def asks (a : IceAgent) (msg : StunMessage) : Bool := msg.useCandidate && decide (a.role = .controlled)

theorem noteNomination_eq (a : IceAgent) (msg : StunMessage) (idx : Nat) :
    a.noteNomination msg idx = { a with pairs := a.pairs.modify idx fun p =>
      { p with nominateRequested := p.nominateRequested || a.asks msg } } := by
  unfold noteNomination
  cases hasks : a.asks msg with
  | true =>
    rw [asks] at hasks
    simp [hasks]
  | false =>
    rw [asks] at hasks
    have hsame : a.pairs.modify idx (fun p : IcePair => p) = a.pairs := by
      apply List.ext_getElem?
      intro i
      rw [List.getElem?_modify]
      split <;> simp
    simp [hasks, hsame]

/-- A check that arrives on a pair: what happens depends on the pair's state. -/
theorem onPair_cases (a : IceAgent) (msg : StunMessage) (source localAddr : SocketAddr)
    (clock : Nat) : a.onPair msg source localAddr clock = a ∨
      ∃ idx p, a.pairs[idx]? = some p ∧ p.localAddr = localAddr ∧ p.remoteAddr = source ∧
        ((p.state = .succeeded ∧ (p.nominateRequested || a.asks msg) = true ∧
            a.onPair msg source localAddr clock =
              ((a.noteNomination msg idx).nominate idx clock).revive) ∨
          ((p.state = .succeeded ∧ (p.nominateRequested || a.asks msg) = false ∨
              p.state = .inProgress ∨ p.state = .failed ∧ p.authFailed = true) ∧
            a.onPair msg source localAddr clock = (a.noteNomination msg idx).revive) ∨
          ((p.state = .waiting ∨ p.state = .frozen) ∧
            a.onPair msg source localAddr clock = ({ a.noteNomination msg idx with
              triggered := a.triggered ++ [(idx, false)] } : IceAgent).revive) ∨
          (p.state = .failed ∧ p.authFailed = false ∧
            a.onPair msg source localAddr clock =
              ({ (a.noteNomination msg idx).setPairState idx .waiting with
                triggered := a.triggered ++ [(idx, false)] } : IceAgent).revive)) := by
  unfold onPair
  split
  · exact .inl rfl
  · next idx hfind =>
    obtain ⟨p, hp, hlocal, hremote⟩ := findPair_eq_some hfind
    refine .inr ⟨idx, p, hp, hlocal, hremote, ?_⟩
    have hnoted : (a.noteNomination msg idx).pairs[idx]? =
        some { p with nominateRequested := p.nominateRequested || a.asks msg } := by
      simp [noteNomination_eq, hp]
    have htriggered : (a.noteNomination msg idx).triggered = a.triggered := by
      rw [noteNomination_eq]
    unfold trigger
    rw [hnoted]
    dsimp only
    cases hstate : p.state with
    | succeeded =>
      cases hasked : (p.nominateRequested || a.asks msg) with
      | true => exact .inl ⟨rfl, rfl, by simp⟩
      | false => exact .inr (.inl ⟨.inl ⟨rfl, rfl⟩, by simp⟩)
    | inProgress => exact .inr (.inl ⟨.inr (.inl rfl), rfl⟩)
    | waiting => exact .inr (.inr (.inl ⟨.inl rfl, by rw [htriggered]⟩))
    | frozen => exact .inr (.inr (.inl ⟨.inr rfl, by rw [htriggered]⟩))
    | failed =>
      cases hauth : p.authFailed with
      | true => exact .inr (.inl ⟨.inr (.inr ⟨rfl, rfl⟩), by simp⟩)
      | false =>
        refine .inr (.inr (.inr ⟨rfl, rfl, ?_⟩))
        simp [setPairState, htriggered]

theorem takePending_eq_some (h : a.takePending tid = some (c, taken)) :
    ∃ pos, a.pending[pos]? = some c ∧ c.transactionId = tid ∧
      taken = { a with pending := a.pending.eraseIdx pos } := by
  unfold takePending at h
  split at h
  · contradiction
  · next pos hpos =>
    obtain ⟨c', hc', heq⟩ := Option.map_eq_some_iff.mp h
    obtain ⟨rfl, rfl⟩ := Prod.mk.inj heq
    obtain ⟨hlt, htid, -⟩ := List.findIdx?_eq_some_iff_getElem.mp hpos
    refine ⟨pos, hc', ?_, rfl⟩
    rw [List.getElem?_eq_getElem hlt, Option.some.injEq] at hc'
    rw [← hc']
    simpa using htid

theorem frame_takePending (h : a.takePending tid = some (c, taken)) :
    c ∈ a.pending ∧ c.transactionId = tid ∧ (∀ c' ∈ taken.pending, c' ∈ a.pending) ∧ Frame a taken ∧
      taken.pairs = a.pairs ∧ taken.state = a.state ∧ taken.triggered = a.triggered ∧
      taken.nominationInFlight = a.nominationInFlight := by
  obtain ⟨pos, hpos, htid, rfl⟩ := takePending_eq_some h
  exact ⟨List.mem_of_getElem? hpos, htid, fun _ => List.mem_of_mem_eraseIdx,
    ⟨rfl, rfl, rfl, rfl, rfl, rfl, rfl⟩, rfl, rfl, rfl, rfl⟩

section

variable (a : IceAgent)

/-- A success response is dropped, or it answers a pending check, from another
address or from the pair's own. -/
theorem handleSuccess_cases (msg : StunMessage) (raw : Bytes)
    (source localAddr : SocketAddr) (clock : Nat) :
    a.handleSuccess hmac msg raw source localAddr clock = a ∨
      ∃ c taken pair, a.takePending msg.transactionId = some (c, taken) ∧
        verifyFingerprint raw = true ∧ verifyMessageIntegrity hmac raw a.remoteKey = true ∧
        a.pairs[c.pairIdx]? = some pair ∧
        (a.handleSuccess hmac msg raw source localAddr clock =
            ((taken.setPairState c.pairIdx .failed).endNomination c).updateFailure ∧
            (source ≠ pair.remoteAddr ∨ localAddr ≠ pair.localAddr) ∨
          a.handleSuccess hmac msg raw source localAddr clock =
            (taken.noteMapped c.pairIdx pair msg.xorMappedAddress).concludeCheck c
              pair.nominateRequested clock ∧
            source = pair.remoteAddr ∧ localAddr = pair.localAddr) := by
  unfold handleSuccess
  split
  · exact .inl rfl
  · next c taken htaken =>
    split
    · exact .inl rfl
    · next hverified =>
      simp only [Bool.or_eq_true, Bool.not_eq_true', not_or, Bool.not_eq_false] at hverified
      split
      · exact .inl rfl
      · next pair hpair =>
        refine .inr ⟨c, taken, pair, htaken, hverified.1, hverified.2, hpair, ?_⟩
        split
        · next hmismatch => exact .inl ⟨rfl, hmismatch⟩
        · next hmatch =>
          simp only [not_or, not_not] at hmatch
          exact .inr ⟨rfl, hmatch⟩

theorem noteMapped_cases (idx : Nat) (pair : IcePair) (mapped : Option SocketAddr) :
    a.noteMapped idx pair mapped = a ∨
      ∃ m extra, mapped = some m ∧
        (extra = [] ∨ m ∉ a.localCandidates.map IceCandidate.addr) ∧
        a.noteMapped idx pair mapped = { a with
          pairs := a.pairs.modify idx fun p => { p with mappedAddress := some m }
          localCandidates := a.localCandidates ++ extra } := by
  cases mapped with
  | none => exact .inl rfl
  | some m =>
    right
    simp only [noteMapped, learnLocalPrflx]
    split
    · exact ⟨m, [], rfl, .inl rfl, by simp⟩
    · next hnew =>
      refine ⟨m, _, rfl, .inr ?_, rfl⟩
      simpa using hnew

theorem noteMapped_kept (idx : Nat) (pair : IcePair) (mapped : Option SocketAddr) :
    (a.noteMapped idx pair mapped).state = a.state ∧
      (a.noteMapped idx pair mapped).selected = a.selected ∧
      (a.noteMapped idx pair mapped).pending = a.pending := by
  obtain hsame | ⟨m, extra, -, -, hnoted⟩ := noteMapped_cases a idx pair mapped
  · rw [hsame]
    exact ⟨rfl, rfl, rfl⟩
  · rw [hnoted]
    exact ⟨rfl, rfl, rfl⟩

/-- An error response is dropped, or answers a pending check: the role is given
up, or the pair fails. -/
theorem handleError_cases (msg : StunMessage) (raw : Bytes) : a.handleError hmac msg raw = a ∨
      ∃ c taken, a.takePending msg.transactionId = some (c, taken) ∧
        ((msg.errorCode.map ErrorCode.code = some ERR_ROLE_CONFLICT ∧
            verifyMessageIntegrity hmac raw a.remoteKey = true ∧
            a.handleError hmac msg raw = taken.onRoleConflict c) ∨
          ∃ code, code ≠ ERR_ROLE_CONFLICT ∧ a.handleError hmac msg raw = taken.onRejected c code) := by
  unfold handleError
  split
  · exact .inl rfl
  · next c taken htaken =>
    dsimp only
    split
    · next hcode =>
      split
      · exact .inl rfl
      · next hverified =>
        refine .inr ⟨c, taken, htaken, .inl ⟨?_, by simpa using hverified, rfl⟩⟩
        cases herr : msg.errorCode.map ErrorCode.code with
        | none =>
          rw [herr] at hcode
          contradiction
        | some code =>
          rw [herr] at hcode
          exact congrArg some hcode
    · next hcode => exact .inr ⟨c, taken, htaken, .inr ⟨_, hcode, rfl⟩⟩

/-- The ways a datagram can change an agent: a request of the peer's, a success
and an error that answer a pending check. -/
theorem handleDatagramAt_cases (raw : Bytes) (source localAddr : SocketAddr) (clock : Nat) :
    (a.handleDatagramAt hmac raw source localAddr clock).1 = a ∨
      ∃ msg, decode raw = .ok msg ∧
        ((msg.kind = .request ∧ ∃ a₁, verifyFingerprint raw = true ∧
            a.authentic hmac msg raw = true ∧ a.resolveRole msg = some a₁ ∧
            (a.handleDatagramAt hmac raw source localAddr clock).1 =
              (a₁.learnRemotePrflx msg source localAddr).onPair msg source localAddr clock) ∨
          (msg.kind = .successResponse ∧ ∃ c taken pair,
            a.takePending msg.transactionId = some (c, taken) ∧ verifyFingerprint raw = true ∧
            verifyMessageIntegrity hmac raw a.remoteKey = true ∧ a.pairs[c.pairIdx]? = some pair ∧
            ((a.handleDatagramAt hmac raw source localAddr clock).1 =
                ((taken.setPairState c.pairIdx .failed).endNomination c).updateFailure ∧
                (source ≠ pair.remoteAddr ∨ localAddr ≠ pair.localAddr) ∨
              (a.handleDatagramAt hmac raw source localAddr clock).1 =
                (taken.noteMapped c.pairIdx pair msg.xorMappedAddress).concludeCheck c
                  pair.nominateRequested clock ∧
                source = pair.remoteAddr ∧ localAddr = pair.localAddr)) ∨
          (msg.kind = .errorResponse ∧ ∃ c taken,
            a.takePending msg.transactionId = some (c, taken) ∧
            ((msg.errorCode.map ErrorCode.code = some ERR_ROLE_CONFLICT ∧
                verifyMessageIntegrity hmac raw a.remoteKey = true ∧
                (a.handleDatagramAt hmac raw source localAddr clock).1 = taken.onRoleConflict c) ∨
              ∃ code, code ≠ ERR_ROLE_CONFLICT ∧
                (a.handleDatagramAt hmac raw source localAddr clock).1 = taken.onRejected c code))) := by
  unfold handleDatagramAt
  cases hdecode : decode raw with
  | error e => exact .inl rfl
  | ok msg =>
    dsimp only
    cases hkind : msg.kind with
    | request =>
      obtain ⟨hsame, -⟩ | ⟨-, -, -, hsame⟩ | ⟨a₁, hfp, hauth, hrole, hdone⟩ :=
        handleRequest_cases a msg raw source localAddr clock
      · exact .inl hsame
      · exact .inl (congrArg Prod.fst hsame)
      · exact .inr ⟨msg, rfl, .inl ⟨hkind, a₁, hfp, hauth, hrole, congrArg Prod.fst hdone⟩⟩
    | successResponse =>
      obtain hsame | ⟨c, taken, pair, hsuccess⟩ :=
        handleSuccess_cases a msg raw source localAddr clock
      · exact .inl hsame
      · exact .inr ⟨msg, rfl, .inr (.inl ⟨hkind, c, taken, pair, hsuccess⟩)⟩
    | errorResponse =>
      obtain hsame | ⟨c, taken, herror⟩ := handleError_cases a msg raw
      · exact .inl hsame
      · exact .inr ⟨msg, rfl, .inr (.inr ⟨hkind, c, taken, herror⟩)⟩
    | indication => exact .inl rfl

end

end IceAgent

/-! ## what a pair is made of -/

/-- The candidates of a pair, and whether the peer has asked for it. -/
def IcePair.core (p : IcePair) : IceCandidate × IceCandidate × Bool :=
  (p.localCand, p.remoteCand, p.nominateRequested)

/-- The pairs are the same but for their checks. -/
def SameCore (a a' : IceAgent) : Prop := a'.pairs.map IcePair.core = a.pairs.map IcePair.core

namespace SameCore

theorem refl (a : IceAgent) : SameCore a a := rfl

theorem trans {a₁ a₂ a₃ : IceAgent} (h : SameCore a₁ a₂) (h' : SameCore a₂ a₃) : SameCore a₁ a₃ :=
  Eq.trans h' h

variable {a' a : IceAgent} {i : Nat}

theorem symm (h : SameCore a a') : SameCore a' a := Eq.symm h

theorem pair (h : SameCore a a') {p' : IcePair}
    (hp' : a'.pairs[i]? = some p') : ∃ p, a.pairs[i]? = some p ∧ p'.core = p.core := by
  have hcores := congrArg (·[i]?) h
  simp only [List.getElem?_map, hp', Option.map_some] at hcores
  obtain ⟨p, hp, hsame⟩ := Option.map_eq_some_iff.mp hcores.symm
  exact ⟨p, hp, hsame.symm⟩

theorem of_frame (h : Frame a a') : SameCore a a' := by
  have hcore : IcePair.core ∘ IcePair.stateless = IcePair.core := rfl
  have hcores := congrArg (List.map IcePair.core) h.shape
  rwa [List.map_map, List.map_map, hcore] at hcores

theorem of_modify {f : IcePair → IcePair}
    (h : a'.pairs = a.pairs.modify i f) (hf : ∀ p, (f p).core = p.core) : SameCore a a' := by
  unfold SameCore
  rw [h]
  apply List.ext_getElem?
  intro j
  simp only [List.getElem?_map, List.getElem?_modify]
  split
  · cases a.pairs[j]? <;> simp [hf]
  · cases a.pairs[j]? <;> rfl

end SameCore

theorem IcePair.addrs_of_core {p p' : IcePair} (h : p'.core = p.core) :
    p'.localAddr = p.localAddr ∧ p'.remoteAddr = p.remoteAddr ∧
      p'.nominateRequested = p.nominateRequested := by
  obtain ⟨hlocal, hrest⟩ := Prod.mk.inj h
  obtain ⟨hremote, hrequested⟩ := Prod.mk.inj hrest
  exact ⟨congrArg IceCandidate.addr hlocal, congrArg IceCandidate.addr hremote, hrequested⟩

namespace IceAgent

variable (a : IceAgent)

theorem sameCore_switchRole (role : IceRole) : SameCore a (a.switchRole role) := by
  unfold SameCore switchRole
  rw [List.map_map]
  rfl

theorem sameCore_nominate (idx clock : Nat) : SameCore a (a.nominate idx clock) := by
  unfold nominate
  split
  · exact .refl a
  · exact .of_modify rfl fun _ => rfl

theorem sameCore_noteMapped (idx : Nat) (pair : IcePair) (mapped : Option SocketAddr) :
    SameCore a (a.noteMapped idx pair mapped) := by
  obtain hsame | ⟨m, extra, -, -, hnoted⟩ := noteMapped_cases a idx pair mapped
  · rw [hsame]
    exact .refl a
  · rw [hnoted]
    exact .of_modify rfl fun _ => rfl

theorem sameCore_onRoleConflict (c : PendingCheck) : SameCore a (a.onRoleConflict c) := by
  have hstate := SameCore.of_frame
    (frame_setPairState (a.switchRole (otherRole a.role)) c.pairIdx .waiting)
  exact (sameCore_switchRole a _).trans hstate

/-- The pair of a rejected check. -/
def reject (c : PendingCheck) (code : UInt16) : IceAgent :=
  { a with pairs := a.pairs.modify c.pairIdx fun p =>
    { p with state := .failed, authFailed := decide (code = ERR_UNAUTHENTICATED) } }

theorem onRejected_eq (c : PendingCheck) (code : UInt16) :
    a.onRejected c code = ((a.reject c code).endNomination c).updateFailure := rfl

theorem sameCore_reject (c : PendingCheck) (code : UInt16) : SameCore a (a.reject c code) :=
  .of_modify rfl fun _ => rfl

end IceAgent

end SmithsNet.Ice
