import SmithsNet.Ice.Destinations
import SmithsNet.Lib.Slots
import SmithsNet.Sdp.Privacy

/-!
# SmithsNet.Webrtc.RelayOnly

The candidates of a WebRTC session under `[webrtc.privacy]`
(`smiths-cli/src/webrtc.rs`, `smiths-cli/src/ice_driver.rs`): an offer is filtered,
negotiated and its lines are scanned for the candidates of an ICE agent; candidates
that are trickled go to the agent the session is registered with; the agent sends
checks while the offer is under way, and keepalives after it.

The filter looks at the candidates the parser has put in media blocks, by the
lower-case names of their types, and at no trickled one.  `relay_only_private`: in
every run in which no offer that gets an agent has a line of a directly reachable
candidate, and no such candidate is trickled to an agent, no agent of the session
gets to know one, checks are sent to the candidates the agents know, and answers
read as descriptions without host candidates.
-/

namespace SmithsNet.Webrtc.RelayOnly

open Lib SmithsNet.Core Sdp
open Ice (IceAgent Outgoing Hmac TransactionId Known)

inductive PrivacyMode
  | «open»
  | relayOnly
  | strict
  deriving DecidableEq

/-- The engine's DTLS identity. -/
structure Cert where
  fingerprint : Text
  trimmed : Trimmed fingerprint
  ne : fingerprint ≠ []

/-- What one negotiation draws. -/
structure Draw extends Fresh where
  wf : toFresh.WF

/-- `CliWebRtcHandler`, as `build_handler` makes it. -/
structure Handler where
  localIp : IpAddr
  dtlsCert : Option Cert
  iceEnabled : Bool
  iceTieBreaker : UInt64
  stunServers : List SocketAddr
  mode : PrivacyMode

def Handler.negotiator (h : Handler) : Negotiator :=
  { Negotiator.withDefaultCodecs h.localIp h.iceTieBreaker with
    dtlsCert := h.dtlsCert.map Cert.fingerprint
    iceEnabled := h.iceEnabled }

/-- A parsed candidate, as the agent has it. -/
def toAgent (c : IceCandidate) : Ice.IceCandidate where
  foundation := String.ofList c.foundation
  component := c.component
  transport := String.ofList c.transport
  priority := c.priority
  address := c.address
  port := c.port
  candidateType := String.ofList c.candidateType
  relatedAddress := c.relatedAddress
  relatedPort := c.relatedPort
  rawParams := c.rawParams.map fun e => (String.ofList e.1, String.ofList e.2)

def srflxCandidate (observed base : SocketAddr) (idx : Nat) : IceCandidate where
  foundation := "srflx".toList ++ showNat idx
  component := 1
  transport := "UDP".toList
  priority := ((100 : UInt32) <<< 24) + ((if observed.ip.isIpv4 then 65534 else 65535 : UInt32) <<< 8) + 255
  address := observed.ip
  port := observed.port
  candidateType := "srflx".toList
  relatedAddress := some base.ip
  relatedPort := some base.port
  rawParams := []

def srflxCandidates (observed : List SocketAddr) (base : SocketAddr) : List IceCandidate :=
  observed.zipIdx.map fun e => srflxCandidate e.1 base e.2

/-- `build_agent`: all local candidates are reached through the socket. -/
def buildAgent (params : IceParams) (locals remotes : List IceCandidate) (base : SocketAddr) : IceAgent :=
  .new params (locals.map toAgent) (remotes.map toAgent) (base :: locals.map fun c => .new c.address c.port)

/-! ## sessions -/

/-- The media socket, when ICE asks for it. -/
inductive MediaSocket
  | bound
  /-- The endpoint was released. -/
  | gone
  /-- It has no local address. -/
  | broken

/-- An offer, and what the engine draws, allocates and observes on its way. -/
structure Offer where
  sdpOffer : Text
  draw : Draw
  /-- The address of the allocated endpoint. -/
  endpoint : Option SocketAddr
  socket : MediaSocket
  /-- What the STUN servers have observed. -/
  observed : List SocketAddr

inductive Stage
  /-- ICE runs. -/
  | checking
  /-- DTLS and rendezvous. -/
  | connected
  | answered
  | failed
  deriving DecidableEq

/-- An offer under way or done with. -/
structure Leg where
  agent : Option IceAgent
  base : SocketAddr
  answerBody : Text
  stage : Stage
  /-- The keepalive task runs. -/
  keepalive : Bool

structure Session where
  legs : List Leg := []
  /-- The leg whose agent `ice_agents` has for the session. -/
  iceAgent : Option Nat := none
  /-- The leg whose task `ice_keepalives` has. -/
  iceKeepalive : Option Nat := none
  /-- Checks and keepalives that were sent. -/
  sent : List Outgoing := []
  answers : List Text := []

section Offers

variable (conv : Conv) (h : Handler)

/-- An offer that does not parse is left to the negotiator. -/
def Handler.rejects (sdpOffer : Text) : Bool :=
  decide (h.mode ≠ .open) &&
    match SessionDescription.parse conv sdpOffer with
    | .ok parsedOffer => decide (rejectDirectCandidates parsedOffer = .rejected)
    | .error _ => false

/-- An offer that is accepted: the address of its endpoint, the answer and the ICE
parameters. -/
def Handler.accepts (o : Offer) : Option (SocketAddr × Text × Option IceParams) :=
  if h.rejects conv o.sdpOffer then none
  else
    match o.endpoint with
    | none => none
    | some base =>
      match h.negotiator.negotiateAudio conv o.draw.toFresh o.sdpOffer h.localIp base.port with
      | .accepted answerBody (some _) _ _ ice => some (base, answerBody, if h.iceEnabled then ice else none)
      | _ => none

def Handler.localCandidates (o : Offer) (base : SocketAddr) : List IceCandidate :=
  makeHostCandidate base.ip base.port :: if h.stunServers = [] then [] else srflxCandidates o.observed base

/-- STUN candidates go to the first block of the answer. -/
def addSrflxCandidates (answer : Text) (base : SocketAddr) (observed : List SocketAddr) : Text :=
  if observed = [] then answer
  else
    match SessionDescription.parse conv answer with
    | .error _ => answer
    | .ok sdp =>
      match sdp.media with
      | [] => answer
      | m :: rest =>
        let m := { m with candidates := m.candidates ++ srflxCandidates observed base }
        ({ sdp with media := m :: rest } : SessionDescription).toText conv

def Handler.finalAnswer (leg : Leg) (observed : List SocketAddr) : Text :=
  match h.mode with
  | .relayOnly | .strict => stripAnswerHostCandidates conv leg.answerBody
  | .open => if h.stunServers = [] then leg.answerBody else addSrflxCandidates conv leg.answerBody leg.base observed

namespace Session

variable (s : Session)

/-- `handle_offer_tagged`, up to the first check. -/
def offer (o : Offer) : Session :=
  match h.accepts conv o with
  | none => s
  | some (base, answerBody, ice) =>
    match ice, o.socket with
    | some params, .bound =>
      let agent := buildAgent params (h.localCandidates o base) (remoteCandidates conv o.sdpOffer) base
      { s with legs := s.legs ++ [⟨some agent, base, answerBody, .checking, false⟩], iceAgent := some s.legs.length }
    | some _, .broken => { s with iceAgent := none }
    | _, _ => { s with legs := s.legs ++ [⟨none, base, answerBody, .connected, false⟩] }

/-- The loop of `run_to_completion` looks at the agent. -/
def look (n : Nat) : Option Session := do
  let leg ← s.legs[n]?
  let a ← leg.agent
  if leg.stage = .checking then
    match a.state, a.selected.bind (a.pairs[·]?) with
    | .checking, _ => return s
    | .completed, some _ =>
      return { s with legs := s.legs.set n { leg with stage := .connected, keepalive := true }, iceKeepalive := some n }
    | _, _ => return { s with legs := s.legs.set n { leg with stage := .failed }, iceAgent := none }
  else none

variable (hmac : Hmac)

/-- A tick of that loop, or of the keepalive task. -/
def tick (n now : Nat) (tid : TransactionId) : Option Session := do
  let leg ← s.legs[n]?
  let a ← leg.agent
  if leg.stage = .checking ∨ leg.keepalive then
    return { s with legs := s.legs.set n { leg with agent := some (a.tickAt hmac now tid).1 }
                    sent := s.sent ++ (a.tickAt hmac now tid).2 }
  else none

/-- A datagram that is no STUN message leaves the agent as it is. -/
def datagram (n : Nat) (raw : Bytes) (source : SocketAddr) (clock : Nat) : Option Session := do
  let leg ← s.legs[n]?
  let a ← leg.agent
  if leg.stage = .checking then
    return { s with legs := s.legs.set n { leg with agent := some (a.handleDatagramAt hmac raw source leg.base clock).1 } }
  else none

/-- The deadline has passed, or the socket broke. -/
def giveUp (n : Nat) : Option Session := do
  let leg ← s.legs[n]?
  if leg.stage = .checking then return { s with legs := s.legs.set n { leg with stage := .failed }, iceAgent := none }
  else none

/-- DTLS and the rendezvous have ended. -/
def conclude (n : Nat) (ok : Bool) (observed : List SocketAddr) : Option Session := do
  let leg ← s.legs[n]?
  if leg.stage = .connected then
    if ok then
      return { s with legs := s.legs.set n { leg with stage := .answered }
                      answers := s.answers ++ [h.finalAnswer conv leg observed] }
    else return { s with legs := s.legs.set n { leg with stage := .failed } }
  else none

/-- `handle_ice_candidate` -/
def candidate (raw : Text) : Session :=
  match parseCandidateLine conv raw, s.iceAgent with
  | some c, some n =>
    match s.legs[n]? with
    | some leg => { s with legs := s.legs.set n { leg with agent := leg.agent.map (·.addRemoteCandidate (toAgent c)) } }
    | none => s
  | _, _ => s

/-- A keepalive task ends: it is cancelled, or could not send. -/
def stopKeepalive (n : Nat) : Session :=
  match s.legs[n]? with
  | some leg => { s with legs := s.legs.set n { leg with keepalive := false } }
  | none => s

/-- `handle_bye`, as far as ICE goes. -/
def bye : Session :=
  let s := { s with iceAgent := none }
  match s.iceKeepalive with
  | some n => { s.stopKeepalive n with iceKeepalive := none }
  | none => s

end Session

inductive Action
  | offer (o : Offer)
  | look (n : Nat)
  | tick (n now : Nat) (tid : TransactionId)
  | datagram (n : Nat) (raw : Bytes) (source : SocketAddr) (clock : Nat)
  | giveUp (n : Nat)
  | conclude (n : Nat) (ok : Bool) (observed : List SocketAddr)
  | candidate (raw : Text)
  | stopKeepalive (n : Nat)
  | bye

def Session.step (hmac : Hmac) (s : Session) : Action → Option Session
  | .offer o => some (s.offer conv h o)
  | .look n => s.look n
  | .tick n now tid => s.tick hmac n now tid
  | .datagram n raw source clock => s.datagram hmac n raw source clock
  | .giveUp n => s.giveUp n
  | .conclude n ok observed => s.conclude conv h n ok observed
  | .candidate raw => some (s.candidate conv raw)
  | .stopKeepalive n => some (s.stopKeepalive n)
  | .bye => some s.bye

end Offers

/-! ## privacy -/

def Leg.remotes (leg : Leg) : List Ice.IceCandidate :=
  match leg.agent with
  | some a => a.remoteCandidates
  | none => []

/-- No agent knows a directly reachable candidate, checks go to candidates that are
known, and answers have no host candidates. -/
structure Session.Private (conv : Conv) (s : Session) : Prop where
  candidates : ∀ leg ∈ s.legs, ∀ c ∈ leg.remotes, ¬ Direct c.candidateType.toList
  sent : ∀ out ∈ s.sent, ∃ leg ∈ s.legs, ∃ c ∈ leg.remotes, ¬ Direct c.candidateType.toList ∧ out.destination = c.addr
  answers : ∀ answer ∈ s.answers, HidesHosts conv answer

/-- An offer that gets an agent has no line of a directly reachable candidate, and no
such candidate is trickled to an agent. -/
def Relayed (conv : Conv) (h : Handler) (s : Session) : Action → Prop
  | .offer o =>
    ∀ accepted ∈ h.accepts conv o, accepted.2.2.isSome = true →
      ∀ c ∈ remoteCandidates conv o.sdpOffer, ¬ Direct c.candidateType
  | .candidate raw => s.iceAgent.isSome = true → ∀ c ∈ parseCandidateLine conv raw, ¬ Direct c.candidateType
  | .look _ | .tick _ _ _ | .datagram _ _ _ _ | .giveUp _ | .conclude _ _ _ | .stopKeepalive _ | .bye => True

instance (conv : Conv) (h : Handler) (s : Session) (a : Action) : Decidable (Relayed conv h s a) := by
  cases a <;> unfold Relayed <;> infer_instance

/-- What is kept: agents check what they know, and what will be answered has no host
candidates once it is stripped. -/
structure Leg.Sound (conv : Conv) (leg : Leg) : Prop where
  known : ∀ a ∈ leg.agent, Known a
  indirect : ∀ c ∈ leg.remotes, ¬ Direct c.candidateType.toList
  answer : HidesHosts conv (stripAnswerHostCandidates conv leg.answerBody)

structure Inv (conv : Conv) (s : Session) : Prop where
  legs : ∀ leg ∈ s.legs, leg.Sound conv
  sent : ∀ out ∈ s.sent, ∃ leg ∈ s.legs, ∃ c ∈ leg.remotes, out.destination = c.addr
  answers : ∀ answer ∈ s.answers, HidesHosts conv answer

theorem Inv.private {conv : Conv} {s : Session} (h : Inv conv s) : s.Private conv := by
  refine ⟨fun leg hleg => (h.legs leg hleg).indirect, fun out hout => ?_, h.answers⟩
  obtain ⟨leg, hleg, c, hc, hdestination⟩ := h.sent out hout
  exact ⟨leg, hleg, c, hc, (h.legs leg hleg).indirect c hc, hdestination⟩

theorem not_direct_prflx : ¬ Direct "prflx".toList := by decide

theorem not_direct_toAgent {c : IceCandidate} (h : ¬ Direct c.candidateType) : ¬ Direct (toAgent c).candidateType.toList := by
  simpa [toAgent] using h

theorem Handler.wf_negotiator (h : Handler) : h.negotiator.WF where
  supported := by
    intro r hr
    have hdefault : ∀ r ∈ (Negotiator.withDefaultCodecs h.localIp h.iceTieBreaker).supported,
        ∀ c ∈ r.codec, c ≠ '/' ∧ c ≠ '\n' := by
      simp only [Negotiator.withDefaultCodecs]
      decide
    exact hdefault r hr
  dtlsCert := by
    intro fingerprint hcert
    obtain ⟨cert, -, rfl⟩ := Option.map_eq_some_iff.mp hcert
    exact ⟨cert.trimmed, cert.ne⟩

theorem Handler.hidesHosts_of_accepts {conv : Conv} {h : Handler} {o : Offer} {base : SocketAddr} {answerBody : Text}
    {ice : Option IceParams} (haccepts : h.accepts conv o = some (base, answerBody, ice)) :
    HidesHosts conv (stripAnswerHostCandidates conv answerBody) := by
  unfold Handler.accepts at haccepts
  split at haccepts
  · contradiction
  · split at haccepts
    · contradiction
    · split at haccepts
      · next hnegotiated =>
        cases haccepts
        exact hidesHosts_stripAnswerHostCandidates h.wf_negotiator o.draw.wf hnegotiated
      · contradiction

namespace Inv

variable {conv : Conv} {h : Handler} {hmac : Hmac} {s s' : Session} {n : Nat} {leg : Leg}

section

variable (hinv : Inv conv s)
include hinv

theorem setLeg {leg' : Leg} (hleg : s.legs[n]? = some leg) (hsound : leg'.Sound conv)
    (hgrows : ∀ c ∈ leg.remotes, c ∈ leg'.remotes) : Inv conv { s with legs := s.legs.set n leg' } := by
  refine ⟨fun l hl => ?_, fun out hout => ?_, hinv.answers⟩
  · obtain hl | rfl := List.mem_or_eq_of_mem_set hl
    · exact hinv.legs l hl
    · exact hsound
  · obtain ⟨l, hl, c, hc, hdestination⟩ := hinv.sent out hout
    obtain hsame | hmem := @mem_set_of_mem Leg s.legs l leg' n hl
    · obtain rfl := Option.mem_unique hleg hsame
      exact ⟨leg', mem_set_self hleg, c, hgrows c hc, hdestination⟩
    · exact ⟨l, hmem, c, hc, hdestination⟩

theorem setStage (leg' : Leg) (hleg : s.legs[n]? = some leg) (hagent : leg'.agent = leg.agent)
    (hanswer : leg'.answerBody = leg.answerBody) : Inv conv { s with legs := s.legs.set n leg' } := by
  have hremotes : leg'.remotes = leg.remotes := by
    unfold Leg.remotes
    rw [hagent]
  have hsound := hinv.legs leg (List.mem_of_getElem? hleg)
  exact hinv.setLeg hleg ⟨hagent ▸ hsound.known, hremotes ▸ hsound.indirect, hanswer ▸ hsound.answer⟩
    fun c hc => hremotes ▸ hc

theorem setAgent {a a' : IceAgent} (hleg : s.legs[n]? = some leg) (hagent : leg.agent = some a)
    (hknown : Known a') (hgrows : ∀ c ∈ a.remoteCandidates, c ∈ a'.remoteCandidates)
    (hindirect : ∀ c ∈ a'.remoteCandidates, c ∈ a.remoteCandidates ∨ ¬ Direct c.candidateType.toList) :
    Inv conv { s with legs := s.legs.set n { leg with agent := some a' } } := by
  have hsound := hinv.legs leg (List.mem_of_getElem? hleg)
  have hremotes : leg.remotes = a.remoteCandidates := by
    unfold Leg.remotes
    rw [hagent]
  refine hinv.setLeg hleg ⟨fun x hx => Option.some.inj hx ▸ hknown, fun c hc => ?_,
    hsound.answer⟩ fun c hc => hgrows c (hremotes ▸ hc)
  obtain hc | hc := hindirect c hc
  · exact hsound.indirect c (hremotes ▸ hc)
  · exact hc

theorem addLeg (hsound : leg.Sound conv) : Inv conv { s with legs := s.legs ++ [leg] } := by
  refine ⟨fun l hl => ?_, fun out hout => ?_, hinv.answers⟩
  · obtain hl | hl := List.mem_append.mp hl
    · exact hinv.legs l hl
    · exact List.mem_singleton.mp hl ▸ hsound
  · obtain ⟨l, hl, hdestination⟩ := hinv.sent out hout
    exact ⟨l, List.mem_append_left _ hl, hdestination⟩

theorem offer {o : Offer} (hrelayed : Relayed conv h s (.offer o)) : Inv conv (s.offer conv h o) := by
  unfold Session.offer
  split
  · exact hinv
  · next base answerBody ice haccepts =>
    have hanswer := Handler.hidesHosts_of_accepts haccepts
    split
    · next params hsocket =>
      have hlines := hrelayed _ haccepts rfl
      have hsound : Leg.Sound conv
          ⟨some (buildAgent params (h.localCandidates o base) (remoteCandidates conv o.sdpOffer) base), base,
            answerBody, .checking, false⟩ := by
        refine ⟨fun a ha => Option.some.inj ha ▸ Known.new _ _ _ _, fun c hc => ?_, hanswer⟩
        obtain ⟨line, hline, rfl⟩ := List.mem_map.mp (IceAgent.mem_new hc)
        exact not_direct_toAgent (hlines line hline)
      have hadded := hinv.addLeg hsound
      exact ⟨hadded.legs, hadded.sent, hadded.answers⟩
    · exact ⟨hinv.legs, hinv.sent, hinv.answers⟩
    · exact hinv.addLeg ⟨by simp, by simp [Leg.remotes], hanswer⟩

theorem look (hstep : s.look n = some s') : Inv conv s' := by
  unfold Session.look at hstep
  obtain ⟨leg, hleg, hstep⟩ := Option.bind_eq_some_iff.mp hstep
  obtain ⟨a, -, hstep⟩ := Option.bind_eq_some_iff.mp hstep
  split at hstep
  · split at hstep
    · cases hstep
      exact hinv
    · cases hstep
      have hset := hinv.setStage { leg with stage := .connected, keepalive := true } hleg rfl rfl
      exact ⟨hset.legs, hset.sent, hset.answers⟩
    · cases hstep
      have hset := hinv.setStage { leg with stage := .failed } hleg rfl rfl
      exact ⟨hset.legs, hset.sent, hset.answers⟩
  · contradiction

theorem tick {now : Nat} {tid : TransactionId} (hstep : s.tick hmac n now tid = some s') : Inv conv s' := by
  unfold Session.tick at hstep
  obtain ⟨leg, hleg, hstep⟩ := Option.bind_eq_some_iff.mp hstep
  obtain ⟨a, hagent, hstep⟩ := Option.bind_eq_some_iff.mp hstep
  split at hstep
  · cases hstep
    have hknown := (hinv.legs leg (List.mem_of_getElem? hleg)).known a hagent
    obtain ⟨hticked, hsame, hsent⟩ := @Known.tickAt a hmac now tid hknown
    have hset := hinv.setAgent hleg hagent hticked (fun c hc => hsame ▸ hc) fun c hc => .inl (hsame ▸ hc)
    refine ⟨hset.legs, fun out hout => ?_, hset.answers⟩
    obtain hout | hout := List.mem_append.mp hout
    · exact hset.sent out hout
    · obtain ⟨c, hc, hdestination⟩ := hsent out hout
      have hremotes : c ∈ ({ leg with agent := some (a.tickAt hmac now tid).1 } : Leg).remotes := by
        show c ∈ (a.tickAt hmac now tid).1.remoteCandidates
        rwa [hsame]
      exact ⟨_, mem_set_self hleg, c, hremotes, hdestination⟩
  · contradiction

theorem datagram {raw : Bytes} {source : SocketAddr} {clock : Nat}
    (hstep : s.datagram hmac n raw source clock = some s') : Inv conv s' := by
  unfold Session.datagram at hstep
  obtain ⟨leg, hleg, hstep⟩ := Option.bind_eq_some_iff.mp hstep
  obtain ⟨a, hagent, hstep⟩ := Option.bind_eq_some_iff.mp hstep
  split at hstep
  · cases hstep
    have hknown := (hinv.legs leg (List.mem_of_getElem? hleg)).known a hagent
    obtain ⟨hhandled, hlearns⟩ := @Known.datagram a hmac raw source leg.base clock hknown
    refine hinv.setAgent hleg hagent hhandled hlearns.old fun c hc => ?_
    obtain hc | hprflx := hlearns.new c hc
    · exact .inl hc
    · exact .inr (hprflx ▸ not_direct_prflx)
  · contradiction

theorem giveUp (hstep : s.giveUp n = some s') : Inv conv s' := by
  unfold Session.giveUp at hstep
  obtain ⟨leg, hleg, hstep⟩ := Option.bind_eq_some_iff.mp hstep
  split at hstep
  · cases hstep
    have hset := hinv.setStage { leg with stage := .failed } hleg rfl rfl
    exact ⟨hset.legs, hset.sent, hset.answers⟩
  · contradiction

theorem conclude {ok : Bool} {observed : List SocketAddr} (hmode : h.mode ≠ .open)
    (hstep : s.conclude conv h n ok observed = some s') : Inv conv s' := by
  unfold Session.conclude at hstep
  obtain ⟨leg, hleg, hstep⟩ := Option.bind_eq_some_iff.mp hstep
  have hfinal : h.finalAnswer conv leg observed = stripAnswerHostCandidates conv leg.answerBody := by
    unfold Handler.finalAnswer
    split
    · rfl
    · rfl
    · contradiction
  have hanswer := (hinv.legs leg (List.mem_of_getElem? hleg)).answer
  split at hstep
  · split at hstep
    · cases hstep
      have hset := hinv.setStage { leg with stage := .answered } hleg rfl rfl
      refine ⟨hset.legs, hset.sent, fun answer hmem => ?_⟩
      obtain hmem | hmem := List.mem_append.mp hmem
      · exact hinv.answers answer hmem
      · obtain rfl := List.mem_singleton.mp hmem
        rwa [hfinal]
    · cases hstep
      exact hinv.setStage _ hleg rfl rfl
  · contradiction

theorem candidate {raw : Text} (hrelayed : Relayed conv h s (.candidate raw)) :
    Inv conv (s.candidate conv raw) := by
  unfold Session.candidate
  split
  · next c n hparsed hagent =>
    have hindirect : ¬ Direct c.candidateType := hrelayed (by rw [hagent]; rfl) c hparsed
    split
    · next leg hleg =>
      cases ha : leg.agent with
      | none =>
        rw [Option.map_none]
        exact hinv.setStage _ hleg ha.symm rfl
      | some a =>
        rw [Option.map_some]
        have hknown := (hinv.legs leg (List.mem_of_getElem? hleg)).known a ha
        refine hinv.setAgent hleg ha (hknown.addRemoteCandidate _) (fun _ => IceAgent.mem_addRemoteCandidate_of_mem) ?_
        intro x hx
        obtain hx | rfl := IceAgent.mem_addRemoteCandidate hx
        · exact .inl hx
        · exact .inr (not_direct_toAgent hindirect)
    · exact hinv
  · exact hinv

theorem stopKeepalive (n : Nat) : Inv conv (s.stopKeepalive n) := by
  unfold Session.stopKeepalive
  split
  · next leg hleg => exact hinv.setStage _ hleg rfl rfl
  · exact hinv

theorem bye : Inv conv s.bye := by
  have hforgot : Inv conv { s with iceAgent := none } := ⟨hinv.legs, hinv.sent, hinv.answers⟩
  unfold Session.bye
  dsimp only
  split
  · next n _ =>
    have hstopped := hforgot.stopKeepalive n
    exact ⟨hstopped.legs, hstopped.sent, hstopped.answers⟩
  · exact hforgot

theorem step {a : Action} (hmode : h.mode ≠ .open) (hrelayed : Relayed conv h s a)
    (hstep : s.step conv h hmac a = some s') : Inv conv s' := by
  cases a with
  | offer o =>
    cases hstep
    exact hinv.offer hrelayed
  | look n => exact hinv.look hstep
  | tick n now tid => exact hinv.tick hstep
  | datagram n raw source clock => exact hinv.datagram hstep
  | giveUp n => exact hinv.giveUp hstep
  | conclude n ok observed => exact hinv.conclude hmode hstep
  | candidate raw =>
    cases hstep
    exact hinv.candidate hrelayed
  | stopKeepalive n =>
    cases hstep
    exact hinv.stopKeepalive n
  | bye =>
    cases hstep
    exact hinv.bye

end

end Inv

/-- In every run of a session in a restricted mode whose offers and trickled candidates
bring the agents no directly reachable candidate past the filter, the session is
private. -/
theorem relay_only_private (conv : Conv) (h : Handler) (hmac : Hmac) (hmode : h.mode ≠ .open)
    {acts : List Action} {s : Session}
    (hexec : exec (Session.step conv h hmac) {} acts = some s)
    (hmeets : Meets (Session.step conv h hmac) (Relayed conv h) {} acts) :
    s.Private conv := by
  have hinit : Inv conv {} := ⟨by simp, by simp, by simp⟩
  have hinv : Inv conv s := exec_invariant_of_meets (fun _ _ _ hs ha hstep => hs.step hmode ha hstep) hexec hmeets hinit
  exact hinv.private

def sampleHandler : Handler where
  localIp := .v4 0x7F000001#32
  dtlsCert := some ⟨"AA:BB".toList, ⟨by decide, by decide⟩, by decide⟩
  iceEnabled := true
  iceTieBreaker := 5
  stunServers := []
  mode := .relayOnly

/-- Credentials `a` and `pa`. -/
def sampleDraw : Draw where
  toFresh := { sampleFresh with iceUfrag := ['a'], icePwd := ['p', 'a'] }
  wf := ⟨fun _ => List.length_replicate, ⟨by decide, by decide⟩, ⟨by decide, by decide⟩⟩

/-- An offer of a lite peer, with these lines above and below the start of its block. -/
def sampleOffer (session media : List String) : Offer where
  sdpOffer := sampleText (["a=ice-lite"] ++ session ++ ["m=audio 4000 UDP/TLS/RTP/SAVPF 0", "a=fingerprint:sha-256 CC:DD",
    "a=setup:actpass", "a=ice-ufrag:b", "a=ice-pwd:pb"] ++ media)
  draw := sampleDraw
  endpoint := some (Ice.sampleAddr 1)
  socket := .bound
  observed := []

theorem sampleOffer_eq (session media : List String) {ls : List Text}
    (h : (sampleOffer session media).sdpOffer = ls.flatMap (· ++ ['\r', '\n'])) : sampleOffer session media =
      { sampleOffer [] [] with sdpOffer := ls.flatMap (· ++ ['\r', '\n']) } := by
  rw [← h]
  rfl

def relayLine : String := "a=candidate:1 1 UDP 7 127.0.0.1 2 typ relay"

/-- A relay candidate in the offer is checked and nominated, another is trickled. -/
def relayedRun : List Action :=
  [.offer (sampleOffer [] [relayLine]), .tick 0 0 (Ice.sampleTid 1),
    .datagram 0 (Ice.sampleSuccess 1) (Ice.sampleAddr 2) 0, .candidate "candidate:2 1 UDP 5 127.0.0.1 3 typ relay".toList,
    .tick 0 Ice.CHECK_PACING (Ice.sampleTid 2), .datagram 0 (Ice.sampleSuccess 2) (Ice.sampleAddr 2) 0, .look 0,
    .conclude 0 true [], .bye]

theorem relay_only_private_relayedRun :
    ∃ s, exec (Session.step sampleConv sampleHandler Ice.sampleHmac) {} relayedRun = some s ∧
      s.sent.map Outgoing.destination = [Ice.sampleAddr 2, Ice.sampleAddr 2] ∧ s.answers.length = 1 ∧
      s.legs.map (fun leg => leg.remotes.map Ice.IceCandidate.candidateType) =
        [["relay", "relay"]] ∧ s.Private sampleConv := by
  have hline : "candidate:2 1 UDP 5 127.0.0.1 3 typ relay".toList = _ := String.toList_ofList
  have hoffer := sampleOffer_eq [] [relayLine] (sampleText_of <|
    map_ofList_cons <| map_ofList_cons <| map_ofList_cons <| map_ofList_cons <| map_ofList_cons <| map_ofList_cons <|
    map_ofList_cons <| List.map_nil)
  have hview : (exec (Session.step sampleConv sampleHandler Ice.sampleHmac) {} relayedRun).map (fun s =>
      (s.sent.map Outgoing.destination, s.answers.length,
        s.legs.map fun leg => leg.remotes.map Ice.IceCandidate.candidateType)) =
      some ([Ice.sampleAddr 2, Ice.sampleAddr 2], 1, [["relay", "relay"]]) := by
    rw [relayedRun, hoffer, hline]
    decide +kernel
  have hmeets : Meets (Session.step sampleConv sampleHandler Ice.sampleHmac)
    (Relayed sampleConv sampleHandler) {} relayedRun := by
    rw [relayedRun, hoffer, hline]
    decide +kernel
  obtain ⟨s, hexec, hview⟩ := Option.map_eq_some_iff.mp hview
  simp only [Prod.mk.injEq] at hview
  exact ⟨s, hexec, hview.1, hview.2.1, hview.2.2,
    relay_only_private sampleConv sampleHandler Ice.sampleHmac nofun hexec hmeets⟩

/-- A host candidate stands above the block, one has its type in capitals, and one is
trickled. -/
def leakingRun : List Action :=
  [.offer (sampleOffer ["a=candidate:1 1 UDP 7 127.0.0.1 2 typ host"] ["a=candidate:2 1 UDP 7 127.0.0.1 3 typ HOST"]),
    .candidate "candidate:3 1 UDP 5 127.0.0.1 4 typ srflx".toList, .tick 0 0 (Ice.sampleTid 1)]

/-- The agent gets to know all three, and checks the one in capitals. -/
theorem host_candidates_checked :
    ∃ s, exec (Session.step sampleConv sampleHandler Ice.sampleHmac) {} leakingRun = some s ∧
      s.legs.map (fun leg => leg.remotes.map Ice.IceCandidate.candidateType) = [["host", "HOST", "srflx"]] ∧
      s.sent.map Outgoing.destination = [Ice.sampleAddr 3] ∧ ¬ s.Private sampleConv := by
  have hoffer := sampleOffer_eq ["a=candidate:1 1 UDP 7 127.0.0.1 2 typ host"] ["a=candidate:2 1 UDP 7 127.0.0.1 3 typ HOST"]
    (sampleText_of <| map_ofList_cons <| map_ofList_cons <| map_ofList_cons <| map_ofList_cons <| map_ofList_cons <|
    map_ofList_cons <| map_ofList_cons <| map_ofList_cons <| List.map_nil)
  have hview : (exec (Session.step sampleConv sampleHandler Ice.sampleHmac) {} leakingRun).map (fun s =>
      (s.legs.map (fun leg => leg.remotes.map Ice.IceCandidate.candidateType), s.sent.map Outgoing.destination)) =
      some ([["host", "HOST", "srflx"]], [Ice.sampleAddr 3]) := by
    rw [leakingRun, hoffer, show "candidate:3 1 UDP 5 127.0.0.1 4 typ srflx".toList = _ from String.toList_ofList]
    decide +kernel
  obtain ⟨s, hexec, hview⟩ := Option.map_eq_some_iff.mp hview
  obtain ⟨htypes, hsent⟩ := Prod.mk.inj hview
  refine ⟨s, hexec, htypes, hsent, fun hprivate => ?_⟩
  obtain ⟨leg, hlegs, hleg⟩ := List.map_eq_singleton_iff.mp htypes
  have hmem : "host" ∈ leg.remotes.map Ice.IceCandidate.candidateType := by
    rw [hleg]
    decide
  obtain ⟨c, hc, hhost⟩ := List.mem_map.mp hmem
  exact hprivate.candidates leg (by simp [hlegs]) c hc (by rw [hhost]; decide)

end SmithsNet.Webrtc.RelayOnly
