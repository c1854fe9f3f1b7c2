import SmithsNet.Ice.Steps

/-!
# SmithsNet.Ice.Destinations

Where an agent sends to: a check goes to the address of a remote candidate, and
remote candidates come from the driver or are peer-reflexive.

`Known` says that the agent's pairs and its checks under way are with its remote
candidates.  What the driver calls keeps it, and every datagram of a tick goes to
the address of a remote candidate (`Known.tickAt`).
-/

namespace SmithsNet.Ice

open Lib SmithsNet.Core

/-- The agents have the same remote candidates and pairs with the same of them, and
the checks under way are among those that were. -/
structure Shrinks (a a' : IceAgent) : Prop where
  remoteCandidates : a'.remoteCandidates = a.remoteCandidates
  remotes : a'.pairs.map IcePair.remoteCand = a.pairs.map IcePair.remoteCand
  pending : ∀ c ∈ a'.pending, c ∈ a.pending

namespace Shrinks

theorem refl (a : IceAgent) : Shrinks a a := ⟨rfl, rfl, fun _ h => h⟩

theorem trans {a₁ a₂ a₃ : IceAgent} (h : Shrinks a₁ a₂) (h' : Shrinks a₂ a₃) : Shrinks a₁ a₃ :=
  ⟨h'.remoteCandidates.trans h.remoteCandidates, h'.remotes.trans h.remotes, fun c hc => h.pending c (h'.pending c hc)⟩

theorem of_sameCore {a a' : IceAgent} (hremote : a'.remoteCandidates = a.remoteCandidates) (hcore : SameCore a a')
    (hpending : ∀ c ∈ a'.pending, c ∈ a.pending) : Shrinks a a' := by
  have hremotes := congrArg (List.map fun core => core.2.1) hcore
  simp only [List.map_map] at hremotes
  exact ⟨hremote, hremotes, hpending⟩

theorem of_frame {a a' : IceAgent} (h : Frame a a') (hpending : ∀ c ∈ a'.pending, c ∈ a.pending) : Shrinks a a' :=
  of_sameCore h.remoteCandidates (.of_frame h) hpending

theorem of_modify {a a' : IceAgent} {i : Nat} {f : IcePair → IcePair} (hpairs : a'.pairs = a.pairs.modify i f)
    (hf : ∀ p, (f p).remoteCand = p.remoteCand) (hremote : a'.remoteCandidates = a.remoteCandidates)
    (hpending : ∀ c ∈ a'.pending, c ∈ a.pending) : Shrinks a a' := by
  refine ⟨hremote, ?_, hpending⟩
  rw [hpairs]
  apply List.ext_getElem?
  intro j
  simp only [List.getElem?_map, List.getElem?_modify]
  split
  · cases a.pairs[j]? <;> simp [hf]
  · cases a.pairs[j]? <;> rfl

end Shrinks

namespace IceAgent

variable (a : IceAgent)

theorem shrinks_setPairState (idx : Nat) (state : PairState) : Shrinks a (a.setPairState idx state) :=
  .of_modify rfl (fun _ => rfl) rfl fun _ h => h

theorem shrinks_nominate (idx clock : Nat) : Shrinks a (a.nominate idx clock) := by
  unfold nominate
  split
  · exact .refl a
  · exact .of_modify rfl (fun _ => rfl) rfl fun _ h => absurd h List.not_mem_nil

theorem shrinks_revive : Shrinks a a.revive := by
  obtain hsame | ⟨-, hrevived⟩ := revive_eq a
  · rw [hsame]
    exact .refl a
  · rw [hrevived]
    exact ⟨rfl, rfl, fun _ h => h⟩

theorem shrinks_ended (c : PendingCheck) : Shrinks a (a.endNomination c).updateFailure := by
  obtain ⟨hframe, -, hpending, -⟩ := frame_ended a c
  exact .of_frame hframe fun _ h => hpending ▸ h

theorem shrinks_switchRole (role : IceRole) : Shrinks a (a.switchRole role) :=
  .of_sameCore rfl (sameCore_switchRole a role) fun _ h => h

theorem shrinks_noteMapped (idx : Nat) (pair : IcePair) (mapped : Option SocketAddr) :
    Shrinks a (a.noteMapped idx pair mapped) := by
  obtain hsame | ⟨m, extra, -, -, hnoted⟩ := noteMapped_cases a idx pair mapped
  · rw [hsame]
    exact .refl a
  · rw [hnoted]
    exact .of_modify rfl (fun _ => rfl) rfl fun _ h => h

theorem shrinks_concludeCheck (c : PendingCheck) (requested : Bool) (clock : Nat) :
    Shrinks a (a.concludeCheck c requested clock) := by
  have hstate := shrinks_setPairState a c.pairIdx .succeeded
  unfold concludeCheck
  dsimp only
  split
  · exact hstate.trans (shrinks_nominate _ _ _)
  · split
    · exact hstate.trans ⟨rfl, rfl, fun _ h => h⟩
    · exact hstate

theorem shrinks_onRoleConflict (c : PendingCheck) : Shrinks a (a.onRoleConflict c) :=
  ((shrinks_switchRole a _).trans (shrinks_setPairState _ c.pairIdx .waiting)).trans ⟨rfl, rfl, fun _ h => h⟩

theorem shrinks_onRejected (c : PendingCheck) (code : UInt16) : Shrinks a (a.onRejected c code) := by
  have hrejected : Shrinks a (a.reject c code) := .of_modify rfl (fun _ => rfl) rfl fun _ h => h
  rw [onRejected_eq]
  exact hrejected.trans (shrinks_ended _ c)

theorem shrinks_onPair (msg : StunMessage) (source localAddr : SocketAddr) (clock : Nat) :
    Shrinks a (a.onPair msg source localAddr clock) := by
  have hnoted : ∀ idx, Shrinks a (a.noteNomination msg idx) := by
    intro idx
    rw [noteNomination_eq]
    exact .of_modify rfl (fun _ => rfl) rfl fun _ h => h
  obtain hsame | ⟨idx, p, -, -, -, hcases⟩ := onPair_cases a msg source localAddr clock
  · rw [hsame]
    exact .refl a
  · obtain ⟨-, -, hdone⟩ | ⟨-, hdone⟩ | ⟨-, hdone⟩ | ⟨-, -, hdone⟩ := hcases
    · rw [hdone]
      exact ((hnoted idx).trans (shrinks_nominate _ idx clock)).trans (shrinks_revive _)
    · rw [hdone]
      exact (hnoted idx).trans (shrinks_revive _)
    · rw [hdone]
      have hqueued : Shrinks a { a.noteNomination msg idx with triggered := a.triggered ++ [(idx, false)] } :=
        (hnoted idx).trans ⟨rfl, rfl, fun _ h => h⟩
      exact hqueued.trans (shrinks_revive _)
    · rw [hdone]
      have hqueued : Shrinks a { (a.noteNomination msg idx).setPairState idx .waiting with
          triggered := a.triggered ++ [(idx, false)] } :=
        ((hnoted idx).trans (shrinks_setPairState _ idx .waiting)).trans ⟨rfl, rfl, fun _ h => h⟩
      exact hqueued.trans (shrinks_revive _)

end IceAgent

/-! ## remote candidates -/

namespace IceAgent

variable {a : IceAgent}

theorem remoteCandidates_formPair (here there : IceCandidate) :
    (a.formPair here there).remoteCandidates = a.remoteCandidates := by
  unfold formPair
  split
  · rfl
  · split <;> rfl

theorem remoteCandidates_formPairs (locals : List IceCandidate) (there : IceCandidate) :
    (locals.foldl (fun a here => a.formPair here there) a).remoteCandidates = a.remoteCandidates := by
  induction locals generalizing a with
  | nil => rfl
  | cons here locals ih => rw [List.foldl_cons, ih, remoteCandidates_formPair]

theorem remoteCandidates_addRemoteCandidate (there : IceCandidate) :
    a.addRemoteCandidate there = a ∨
      (a.addRemoteCandidate there).remoteCandidates = a.remoteCandidates ++ [there] := by
  unfold addRemoteCandidate
  split
  · exact .inl rfl
  · right
    rw [(shrinks_revive _).remoteCandidates, remoteCandidates_formPairs]

theorem mem_addRemoteCandidate {there c : IceCandidate} (h : c ∈ (a.addRemoteCandidate there).remoteCandidates) :
    c ∈ a.remoteCandidates ∨ c = there := by
  obtain hsame | hadded := @remoteCandidates_addRemoteCandidate a there
  · exact .inl (hsame ▸ h)
  · rw [hadded] at h
    simpa using h

theorem mem_addRemoteCandidate_of_mem {there c : IceCandidate} (h : c ∈ a.remoteCandidates) :
    c ∈ (a.addRemoteCandidate there).remoteCandidates := by
  obtain hsame | hadded := @remoteCandidates_addRemoteCandidate a there
  · rwa [hsame]
  · rw [hadded]
    exact List.mem_append_left _ h

theorem mem_new {params : IceParams} {locals remotes : List IceCandidate} {sockets : List SocketAddr} {c : IceCandidate}
    (h : c ∈ (IceAgent.new params locals remotes sockets).remoteCandidates) : c ∈ remotes := by
  have hadded : ∀ (cs : List IceCandidate) (b : IceAgent),
      c ∈ (cs.foldl IceAgent.addRemoteCandidate b).remoteCandidates → c ∈ b.remoteCandidates ∨ c ∈ cs := by
    intro cs
    induction cs with
    | nil => exact fun b hc => .inl hc
    | cons there cs ih =>
      intro b hc
      obtain hc | hc := ih _ hc
      · obtain hc | rfl := mem_addRemoteCandidate hc
        · exact .inl hc
        · exact .inr List.mem_cons_self
      · exact .inr (List.mem_cons_of_mem _ hc)
  obtain hc | hc := hadded remotes _ h
  · contradiction
  · exact hc

end IceAgent

/-! ## known candidates -/

/-- The pairs and the checks under way are with remote candidates. -/
structure Known (a : IceAgent) : Prop where
  pairs : ∀ p ∈ a.pairs, p.remoteCand ∈ a.remoteCandidates
  pending : ∀ c ∈ a.pending, ∃ r ∈ a.remoteCandidates, c.destination = r.addr

namespace Known

variable {a a' : IceAgent}

theorem shrinks (h : Known a) (hshrinks : Shrinks a a') : Known a' := by
  have hsame := hshrinks.remoteCandidates
  refine ⟨fun p hp => ?_, fun c hc => hsame ▸ h.pending c (hshrinks.pending c hc)⟩
  have hmem : p.remoteCand ∈ a.pairs.map IcePair.remoteCand := by
    rw [← hshrinks.remotes]
    exact List.mem_map_of_mem hp
  obtain ⟨q, hq, hremote⟩ := List.mem_map.mp hmem
  rw [hsame, ← hremote]
  exact h.pairs q hq

theorem grow (h : Known a) (there : IceCandidate) :
    Known { a with remoteCandidates := a.remoteCandidates ++ [there] } := by
  refine ⟨fun p hp => List.mem_append_left _ (h.pairs p hp), fun c hc => ?_⟩
  obtain ⟨r, hr, hdestination⟩ := h.pending c hc
  exact ⟨r, List.mem_append_left _ hr, hdestination⟩

theorem formPair (h : Known a) {here there : IceCandidate} (hthere : there ∈ a.remoteCandidates) :
    Known (a.formPair here there) := by
  unfold IceAgent.formPair
  split
  · exact h
  · split
    · exact h
    · refine ⟨fun p hp => ?_, h.pending⟩
      obtain hp | hp := List.mem_append.mp hp
      · exact h.pairs p hp
      · obtain rfl := List.mem_singleton.mp hp
        exact hthere

theorem addRemoteCandidate (h : Known a) (there : IceCandidate) : Known (a.addRemoteCandidate there) := by
  unfold IceAgent.addRemoteCandidate
  split
  · exact h
  · have hpaired : ∀ (locals : List IceCandidate) (b : IceAgent), there ∈ b.remoteCandidates → Known b →
        Known (locals.foldl (fun a here => a.formPair here there) b) := by
      intro locals
      induction locals with
      | nil => exact fun b _ hb => hb
      | cons here locals ih =>
        intro b hmem hb
        have hkept : there ∈ (b.formPair here there).remoteCandidates := by
          rwa [IceAgent.remoteCandidates_formPair]
        exact ih _ hkept (hb.formPair hmem)
    have hmem : there ∈ a.remoteCandidates ++ [there] := by simp
    exact (hpaired _ _ hmem (h.grow there)).shrinks (IceAgent.shrinks_revive _)

theorem new (params : IceParams) (locals remotes : List IceCandidate) (sockets : List SocketAddr) :
    Known (.new params locals remotes sockets) := by
  have hadded : ∀ (cs : List IceCandidate) (b : IceAgent), Known b → Known (cs.foldl IceAgent.addRemoteCandidate b) := by
    intro cs
    induction cs with
    | nil => exact fun b hb => hb
    | cons c cs ih => exact fun b hb => ih _ (hb.addRemoteCandidate c)
  exact hadded remotes _ ⟨by simp, by simp⟩

section Datagram

variable {hmac : Hmac} {raw : Bytes} {source localAddr : SocketAddr} {clock : Nat}

/-- Remote candidates are added at most, and those are peer-reflexive. -/
structure Learns (a a' : IceAgent) : Prop where
  old : ∀ c ∈ a.remoteCandidates, c ∈ a'.remoteCandidates
  new : ∀ c ∈ a'.remoteCandidates, c ∈ a.remoteCandidates ∨ c.candidateType = "prflx"

theorem Learns.of_shrinks (h : Shrinks a a') : Learns a a' :=
  ⟨fun _ hc => h.remoteCandidates ▸ hc, fun _ hc => .inl (h.remoteCandidates ▸ hc)⟩

theorem learns_learnRemotePrflx (a : IceAgent) (msg : StunMessage) (source localAddr : SocketAddr) :
    Learns a (a.learnRemotePrflx msg source localAddr) := by
  unfold IceAgent.learnRemotePrflx
  dsimp only
  split
  · exact .of_shrinks (.refl a)
  · refine ⟨fun c hc => IceAgent.mem_addRemoteCandidate_of_mem hc, fun c hc => ?_⟩
    obtain hc | rfl := IceAgent.mem_addRemoteCandidate hc
    · exact .inl hc
    · exact .inr rfl

theorem learnRemotePrflx (h : Known a) (msg : StunMessage) (source localAddr : SocketAddr) :
    Known (a.learnRemotePrflx msg source localAddr) := by
  unfold IceAgent.learnRemotePrflx
  dsimp only
  split
  · exact h
  · exact h.addRemoteCandidate _

theorem datagram (h : Known a) : Known (a.handleDatagramAt hmac raw source localAddr clock).1 ∧
      Learns a (a.handleDatagramAt hmac raw source localAddr clock).1 := by
  have hshrinks : ∀ {a' : IceAgent}, Shrinks a a' → Known a' ∧ Learns a a' := fun hs => ⟨h.shrinks hs, .of_shrinks hs⟩
  obtain hsame | ⟨msg, -, hcases⟩ := @IceAgent.handleDatagramAt_cases hmac a raw source localAddr clock
  · rw [hsame]
    exact hshrinks (.refl a)
  · obtain ⟨-, a₁, -, -, hrole, hdone⟩ | ⟨-, c, taken, pair, htaken, -, -, -, hdone⟩ |
      ⟨-, c, taken, htaken, hdone⟩ := hcases
    · rw [hdone]
      have hs₁ : Shrinks a a₁ := by
        obtain rfl | ⟨-, rfl, -⟩ | ⟨-, rfl, -⟩ := IceAgent.resolveRole_cases hrole
        · exact .refl _
        · exact IceAgent.shrinks_switchRole _ _
        · exact IceAgent.shrinks_switchRole _ _
      have hknown : Known (a₁.learnRemotePrflx msg source localAddr) := (h.shrinks hs₁).learnRemotePrflx _ _ _
      have hlearns := learns_learnRemotePrflx a₁ msg source localAddr
      have hs₂ := IceAgent.shrinks_onPair (a₁.learnRemotePrflx msg source localAddr) msg source localAddr clock
      refine ⟨hknown.shrinks hs₂, fun c hc => ?_, fun c hc => ?_⟩
      · rw [hs₂.remoteCandidates]
        exact hlearns.old c (hs₁.remoteCandidates ▸ hc)
      · rw [← hs₁.remoteCandidates]
        exact hlearns.new c (hs₂.remoteCandidates ▸ hc)
    · obtain ⟨-, -, hless, hframe, -⟩ := IceAgent.frame_takePending htaken
      have hs₁ : Shrinks a taken := .of_frame hframe hless
      obtain ⟨hdone, -⟩ | ⟨hdone, -⟩ := hdone
      · rw [hdone]
        exact hshrinks ((hs₁.trans (IceAgent.shrinks_setPairState _ _ _)).trans (IceAgent.shrinks_ended _ _))
      · rw [hdone]
        exact hshrinks ((hs₁.trans (IceAgent.shrinks_noteMapped _ _ _ _)).trans (IceAgent.shrinks_concludeCheck _ _ _ _))
    · obtain ⟨-, -, hless, hframe, -⟩ := IceAgent.frame_takePending htaken
      have hs₁ : Shrinks a taken := .of_frame hframe hless
      obtain ⟨-, -, hdone⟩ | ⟨code, -, hdone⟩ := hdone
      · rw [hdone]
        exact hshrinks (hs₁.trans (IceAgent.shrinks_onRoleConflict _ _))
      · rw [hdone]
        exact hshrinks (hs₁.trans (IceAgent.shrinks_onRejected _ _ _))

end Datagram

section Tick

variable {hmac : Hmac} {now : Nat} {tid : TransactionId}

section

variable (h : Known a)
include h

theorem of_frame (hframe : Frame a a')
    (hpending : ∀ c ∈ a'.pending, ∃ r ∈ a.remoteCandidates, c.destination = r.addr) : Known a' := by
  have hsame := hframe.remoteCandidates
  refine ⟨fun p hp => ?_, fun c hc => hsame ▸ hpending c hc⟩
  obtain ⟨i, hi⟩ := List.getElem?_of_mem hp
  obtain ⟨q, hq, hshape⟩ := hframe.pair hi
  have hremote : p.stateless.remoteCand = q.stateless.remoteCand := congrArg IcePair.remoteCand hshape
  show p.stateless.remoteCand ∈ a'.remoteCandidates
  rw [hremote, hsame]
  exact h.pairs q (List.mem_of_getElem? hq)

theorem retransmit : Known (a.retransmit now).1 := by
  obtain ⟨hframe, hpending, -⟩ := IceAgent.frame_retransmit a now
  refine h.of_frame hframe fun c hc => ?_
  rw [hpending] at hc
  obtain ⟨c₀, hc₀, rfl⟩ := List.mem_map.mp hc
  have hsame : (c₀.resend now).destination = c₀.destination := by
    unfold PendingCheck.resend
    split <;> rfl
  rw [hsame]
  exact h.pending c₀ (List.mem_of_mem_filter hc₀)

theorem destination_retransmit {o : Outgoing} (ho : o ∈ (a.retransmit now).2) :
    ∃ r ∈ a.remoteCandidates, o.destination = r.addr := by
  obtain ⟨c, hc, rfl⟩ := List.mem_map.mp ho
  exact h.pending c (List.mem_of_mem_filter hc)

theorem startCheck : Known (a.startCheck hmac now tid).1 ∧
      ∀ o ∈ (a.startCheck hmac now tid).2, ∃ r ∈ a.remoteCandidates, o.destination = r.addr := by
  have hframe := (IceAgent.frame_startCheck hmac a now tid).1
  obtain ⟨rest, -, hnone⟩ | ⟨rest, idx, nominate, pair, bytes, -, -, hpair, -, -, hsent⟩ :=
    IceAgent.startCheck_cases hmac a now tid
  · rw [hnone]
    exact ⟨⟨h.pairs, h.pending⟩, by simp⟩
  · rw [hsent] at hframe ⊢
    have hnew : ∃ r ∈ a.remoteCandidates, pair.remoteAddr = r.addr :=
      ⟨pair.remoteCand, h.pairs pair (List.mem_of_getElem? hpair), rfl⟩
    refine ⟨h.of_frame hframe fun c hc => ?_, fun o ho => ?_⟩
    · obtain hc | hc := List.mem_append.mp hc
      · exact h.pending c hc
      · obtain rfl := List.mem_singleton.mp hc
        exact hnew
    · obtain rfl := List.mem_singleton.mp ho
      exact hnew

theorem destination_keepalive {o : Outgoing} (ho : o ∈ (a.keepalive hmac now tid).2) :
    ∃ r ∈ a.remoteCandidates, o.destination = r.addr := by
  unfold IceAgent.keepalive at ho
  split at ho
  · contradiction
  · split at ho
    · contradiction
    · next pair hpair =>
      obtain ⟨i, -, hi⟩ := Option.bind_eq_some_iff.mp hpair
      split at ho
      · contradiction
      · split at ho
        · contradiction
        · obtain rfl := List.mem_singleton.mp ho
          exact ⟨pair.remoteCand, h.pairs pair (List.mem_of_getElem? hi), rfl⟩

/-- A tick keeps the remote candidates, and sends to their addresses. -/
theorem tickAt :
    Known (a.tickAt hmac now tid).1 ∧ (a.tickAt hmac now tid).1.remoteCandidates = a.remoteCandidates ∧
      ∀ o ∈ (a.tickAt hmac now tid).2, ∃ r ∈ a.remoteCandidates, o.destination = r.addr := by
  cases hstate : a.state with
  | failed =>
    have hsame : a.tickAt hmac now tid = (a, []) := by simp [IceAgent.tickAt, hstate]
    rw [hsame]
    exact ⟨h, rfl, by simp⟩
  | completed =>
    have hsame : a.tickAt hmac now tid = a.keepalive hmac now tid := by simp [IceAgent.tickAt, hstate]
    rw [hsame]
    obtain ⟨last, out, hkeep⟩ := IceAgent.keepalive_cases hmac a now tid
    have hsent : ∀ o ∈ (a.keepalive hmac now tid).2, ∃ r ∈ a.remoteCandidates, o.destination = r.addr :=
      fun o ho => h.destination_keepalive ho
    rw [hkeep] at hsent ⊢
    exact ⟨⟨h.pairs, h.pending⟩, rfl, hsent⟩
  | checking =>
    obtain ⟨a₁, new, htick, hstart⟩ := IceAgent.tickAt_checking hmac hstate now tid
    have hresent := (IceAgent.frame_retransmit a now).1.remoteCandidates
    have hstarted : Known a₁ ∧ a₁.remoteCandidates = a.remoteCandidates ∧
        ∀ o ∈ new, ∃ r ∈ a.remoteCandidates, o.destination = r.addr := by
      obtain ⟨heq, -⟩ | ⟨heq, -⟩ := hstart
      · obtain ⟨rfl, rfl⟩ := Prod.mk.inj heq
        exact ⟨h.retransmit, hresent, by simp⟩
      · have hretransmitted : Known (a.retransmit now).1 := h.retransmit
        have hkept := (IceAgent.frame_startCheck hmac (a.retransmit now).1 now tid).1.remoteCandidates
        have hstarted := @startCheck _ hmac now tid hretransmitted
        rw [← heq] at hstarted hkept
        rw [hresent] at hstarted hkept
        exact ⟨hstarted.1, hkept, hstarted.2⟩
    obtain ⟨hframe, -, hpending, -⟩ := IceAgent.frame_updateFailure a₁
    obtain ⟨hknown, hkept, hsent⟩ := hstarted
    rw [htick]
    refine ⟨hknown.shrinks (.of_frame hframe fun c hc => hpending ▸ hc), hframe.remoteCandidates.trans hkept,
      fun o ho => ?_⟩
    obtain ho | ho := List.mem_append.mp ho
    · exact h.destination_retransmit ho
    · exact hsent o ho

end

end Tick

end Known

end SmithsNet.Ice
