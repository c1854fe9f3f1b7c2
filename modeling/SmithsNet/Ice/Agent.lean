import SmithsNet.Ice.Stun
import SmithsNet.Lib.Exec

/-!
# SmithsNet.Ice.Agent

The ICE agent (`smiths-ice/src/agent.rs`): candidate pairs, connectivity
checks, peer-reflexive candidates, nomination and role conflicts for one media
component.

The agent reads and writes no socket: `tickAt` returns the datagrams to send,
`handleDatagramAt` takes a received one and returns the reply.  A socket is the
address it is bound to.  Times are nanoseconds of the driver's clock; `tid` is
the transaction id that is drawn, `clock` what `Instant::now` says.
-/

namespace SmithsNet.Ice

open Lib SmithsNet.Core

/-! ## data -/

/-- Pacing between new checks: 50 ms. -/
def CHECK_PACING : Nat := 50000000

/-- First retransmission timeout of a check: 500 ms. -/
def RETRANSMIT_TIMEOUT : Nat := 500000000

/-- Retransmissions before a check is lost. -/
def MAX_RETRANSMITS : Nat := 7

/-- 15 s. -/
def KEEPALIVE_INTERVAL : Nat := 15000000000

def PRFLX_TYPE_PREFERENCE : UInt32 := 110

structure IceCandidate where
  foundation : String
  component : UInt8
  transport : String
  priority : UInt32
  address : IpAddr
  port : UInt16
  candidateType : String
  relatedAddress : Option IpAddr := none
  relatedPort : Option UInt16 := none
  rawParams : List (String × String) := []

def IceCandidate.addr (c : IceCandidate) : SocketAddr := .new c.address c.port

inductive PairState
  | frozen
  | waiting
  | inProgress
  | succeeded
  | failed
  deriving DecidableEq

inductive IceState
  | checking
  | completed
  | failed
  deriving DecidableEq

structure IcePair where
  localCand : IceCandidate
  remoteCand : IceCandidate
  priority : UInt64
  state : PairState := .waiting
  nominated : Bool := false
  mappedAddress : Option SocketAddr := none
  /-- The peer sent USE-CANDIDATE for the pair; honoured once its own check
  succeeds. -/
  nominateRequested : Bool := false
  authFailed : Bool := false

def IcePair.localAddr (p : IcePair) : SocketAddr := p.localCand.addr

def IcePair.remoteAddr (p : IcePair) : SocketAddr := p.remoteCand.addr

/-- A datagram the driver must send. -/
structure Outgoing where
  bytes : Bytes
  destination : SocketAddr
  socket : SocketAddr

structure PendingCheck where
  pairIdx : Nat
  /-- The message that `bytes` encode. -/
  request : StunMessage
  bytes : Bytes
  destination : SocketAddr
  socket : SocketAddr
  lastSent : Nat
  retransmits : Nat
  nominating : Bool

def PendingCheck.transactionId (c : PendingCheck) : TransactionId := c.request.transactionId

def PendingCheck.outgoing (c : PendingCheck) : Outgoing := ⟨c.bytes, c.destination, c.socket⟩

/-- The timeout has run out; it doubles with each retransmission. -/
def PendingCheck.due (c : PendingCheck) (now : Nat) : Bool :=
  decide (RETRANSMIT_TIMEOUT * 2 ^ min c.retransmits 16 ≤ now - c.lastSent)

/-- It is sent once more. -/
def PendingCheck.again (c : PendingCheck) (now : Nat) : Bool :=
  c.due now && decide (c.retransmits < MAX_RETRANSMITS)

/-- It is given up. -/
def PendingCheck.lost (c : PendingCheck) (now : Nat) : Bool :=
  c.due now && !decide (c.retransmits < MAX_RETRANSMITS)

def PendingCheck.resend (c : PendingCheck) (now : Nat) : PendingCheck :=
  if c.again now then { c with retransmits := c.retransmits + 1, lastSent := now } else c

structure IceAgent where
  params : IceParams
  role : IceRole
  localCandidates : List IceCandidate
  remoteCandidates : List IceCandidate
  pairs : List IcePair
  /-- Triggered checks, with whether they nominate. -/
  triggered : List (Nat × Bool)
  pending : List PendingCheck
  sockets : List SocketAddr
  state : IceState
  selected : Option Nat
  nominationInFlight : Bool
  lastCheckSent : Option Nat
  lastKeepalive : Option Nat
  keepaliveInterval : Nat
  failure : Option String

/-- The priority a peer should give the candidate if it learns it as
peer-reflexive. -/
def prflxPriority (c : IceCandidate) : UInt32 :=
  (PRFLX_TYPE_PREFERENCE <<< 24) + (((c.priority >>> 8) &&& 0xFFFF) <<< 8) +
    (256 - c.component.toUInt32)

/-- `2^32 * MIN(G,D) + 2 * MAX(G,D) + (G > D)`, `G` the controlling side's. -/
def pairPriority (role : IceRole) (here there : UInt32) : UInt64 :=
  let (g, d) := match role with
    | .controlling => (here, there)
    | .controlled => (there, here)
  ((min g d).toUInt64 <<< 32) + ((max g d).toUInt64 <<< 1) + (if d < g then 1 else 0)

/-- `max_by_key`: the last one of the largest. -/
def maxByKey {α : Type} (key : α → UInt64) (xs : List α) : Option α :=
  xs.foldl (fun best x =>
    match best with
    | none => some x
    | some b => if key b ≤ key x then some x else some b) none

namespace IceAgent

variable (hmac : Hmac)

/-! ## candidates and pairs -/

def findPair (a : IceAgent) (here there : SocketAddr) : Option Nat :=
  a.pairs.findIdx? fun p => decide (p.localAddr = here) && decide (p.remoteAddr = there)

def formPair (a : IceAgent) (here there : IceCandidate) : IceAgent :=
  if here.component ≠ there.component ∨ here.address.isIpv4 ≠ there.address.isIpv4 then a
  else
    match a.findPair here.addr there.addr with
    | some _ => a
    | none =>
      { a with pairs := a.pairs ++ [
        { localCand := here
          remoteCand := there
          priority := pairPriority a.role here.priority there.priority }] }

/-- A failed agent goes back to checking. -/
def revive (a : IceAgent) : IceAgent :=
  if a.state = .failed then { a with state := .checking, failure := none } else a

def addRemoteCandidate (a : IceAgent) (there : IceCandidate) : IceAgent :=
  if a.remoteCandidates.any fun c =>
      decide (c.addr = there.addr) && decide (c.component = there.component) then a
  else
    let a := { a with remoteCandidates := a.remoteCandidates ++ [there] }
    (a.localCandidates.foldl (fun a here => a.formPair here there) a).revive

/-- Local candidates without a socket are left out. -/
def new (params : IceParams) (locals remotes : List IceCandidate) (sockets : List SocketAddr) :
    IceAgent :=
  remotes.foldl addRemoteCandidate
    { params := params
      role := params.role
      localCandidates := locals.filter fun c => decide (c.addr ∈ sockets)
      remoteCandidates := []
      pairs := []
      triggered := []
      pending := []
      sockets := sockets
      state := .checking
      selected := none
      nominationInFlight := false
      lastCheckSent := none
      lastKeepalive := none
      keepaliveInterval := KEEPALIVE_INTERVAL
      failure := none }

def switchRole (a : IceAgent) (role : IceRole) : IceAgent :=
  { a with
    role := role
    pairs := a.pairs.map fun p =>
      { p with priority := pairPriority role p.localCand.priority p.remoteCand.priority } }

def setPairState (a : IceAgent) (idx : Nat) (state : PairState) : IceAgent :=
  { a with pairs := a.pairs.modify idx fun p => { p with state := state } }

/-- The state of a pair; indices are always of pairs. -/
def pairState (a : IceAgent) (idx : Nat) : Option PairState := (a.pairs[idx]?).map IcePair.state

def nominate (a : IceAgent) (idx : Nat) (clock : Nat) : IceAgent :=
  if a.state = .completed then a
  else
    { a with
      pairs := a.pairs.modify idx fun p => { p with nominated := true }
      selected := some idx
      state := .completed
      lastKeepalive := some clock
      pending := []
      triggered := [] }

def failureReason (a : IceAgent) : String :=
  let auth := a.pairs.countP IcePair.authFailed
  if a.pairs.isEmpty then "no candidate pairs could be formed"
  else if auth = a.pairs.length then
    "all " ++ toString auth ++ " candidate pairs rejected the credentials (401)"
  else
    "all " ++ toString a.pairs.length ++ " candidate pairs failed (" ++ toString auth ++
      " credential rejections)"

/-- Once nothing is in flight, nothing is waiting and no pair succeeded, the
agent has failed. -/
def updateFailure (a : IceAgent) : IceAgent :=
  if a.state ≠ .checking ∨ a.pending ≠ [] ∨ a.triggered ≠ [] then a
  else if a.pairs.any fun p => decide (p.state ≠ .failed) then a
  else { a with failure := some a.failureReason, state := .failed }

/-! ## outbound checks -/

/-- A triggered check is sent in these states only. -/
def sendable (a : IceAgent) (entry : Nat × Bool) : Bool :=
  match a.pairState entry.1 with
  | some .waiting | some .frozen | some .succeeded => true
  | _ => false

/-- The next triggered check, those before it dropped. -/
def nextTriggered (a : IceAgent) : Option (Nat × Bool) × IceAgent :=
  match a.triggered.dropWhile fun e => !a.sendable e with
  | [] => (none, { a with triggered := [] })
  | e :: rest => (some e, { a with triggered := rest })

/-- The waiting pair of the highest priority. -/
def nextOrdinary (a : IceAgent) : Option Nat :=
  (maxByKey (fun e : IcePair × Nat => e.1.priority)
    (a.pairs.zipIdx.filter fun e => decide (e.1.state = .waiting))).map Prod.snd

/-- `remote_ufrag:local_ufrag` -/
def checkUsername (a : IceAgent) : Text :=
  a.params.remoteUfrag.toList ++ [':'] ++ a.params.localUfrag.toList

def checkMessage (a : IceAgent) (pair : IcePair) (nominate : Bool) (tid : TransactionId) :
    StunMessage :=
  let msg := { StunMessage.newBindingRequest tid with
    username := some a.checkUsername
    priority := some (prflxPriority pair.localCand) }
  match a.role with
  | .controlling =>
    { msg with iceControlling := some a.params.tieBreaker, useCandidate := nominate }
  | .controlled => { msg with iceControlled := some a.params.tieBreaker }

def remoteKey (a : IceAgent) : Bytes := toUtf8 a.params.remotePwd.toList

def localKey (a : IceAgent) : Bytes := toUtf8 a.params.localPwd.toList

def newCheck (a : IceAgent) (idx : Nat) (pair : IcePair) (nominate : Bool) (now : Nat)
    (tid : TransactionId) (bytes : Bytes) : PendingCheck where
  pairIdx := idx
  request := a.checkMessage pair nominate tid
  bytes := bytes
  destination := pair.remoteAddr
  socket := pair.localAddr
  lastSent := now
  retransmits := 0
  nominating := nominate

def sendCheck (a : IceAgent) (idx : Nat) (nominate : Bool) (now : Nat) (tid : TransactionId) :
    IceAgent × Option Outgoing :=
  match a.pairs[idx]? with
  | none => (a, none)
  | some pair =>
    if pair.localAddr ∉ a.sockets then (a, none)
    else
      match (a.checkMessage pair nominate tid).encodeWith hmac (some a.remoteKey) true with
      | .error _ => (a, none)
      | .ok bytes =>
        let check := a.newCheck idx pair nominate now tid bytes
        let a := if pair.state ≠ .succeeded then a.setPairState idx .inProgress else a
        ({ a with pending := a.pending ++ [check], lastCheckSent := some now },
          some check.outgoing)

/-- A nominating check ended without nominating. -/
def endNomination (a : IceAgent) (c : PendingCheck) : IceAgent :=
  if c.nominating then { a with nominationInFlight := false } else a

/-- A check that was given up. -/
def expire (a : IceAgent) (c : PendingCheck) : IceAgent :=
  let a := if a.pairState c.pairIdx ≠ some .succeeded then a.setPairState c.pairIdx .failed else a
  a.endNomination c

def retransmit (a : IceAgent) (now : Nat) : IceAgent × List Outgoing :=
  let out := (a.pending.filter fun c => c.again now).map PendingCheck.outgoing
  let lost := a.pending.filter fun c => c.lost now
  let kept := a.pending.filter fun c => !c.lost now
  (lost.reverse.foldl expire { a with pending := kept.map fun c => c.resend now }, out)

def selectedPair (a : IceAgent) : Option IcePair := a.selected.bind fun i => a.pairs[i]?

def keepaliveDue (a : IceAgent) (now : Nat) : Bool :=
  match a.lastKeepalive with
  | none => true
  | some t => decide (a.keepaliveInterval ≤ now - t)

def keepalive (a : IceAgent) (now : Nat) (tid : TransactionId) : IceAgent × List Outgoing :=
  if !a.keepaliveDue now then (a, [])
  else
    match a.selectedPair with
    | none => (a, [])
    | some pair =>
      if pair.localAddr ∉ a.sockets then (a, [])
      else
        match (StunMessage.newBindingIndication tid).encodeWith hmac none true with
        | .error _ => (a, [])
        | .ok bytes =>
          ({ a with lastKeepalive := some now }, [⟨bytes, pair.remoteAddr, pair.localAddr⟩])

/-- Pacing allows a new check. -/
def paced (a : IceAgent) (now : Nat) : Bool :=
  match a.lastCheckSent with
  | none => true
  | some t => decide (CHECK_PACING ≤ now - t)

/-- The next check to send, triggered ones first. -/
def nextCheck (a : IceAgent) : Option (Nat × Bool) × IceAgent :=
  match a.nextTriggered with
  | (some e, a) => (some e, a)
  | (none, a) => (a.nextOrdinary.map (·, false), a)

/-- The check that a tick would start, when pacing allows it. -/
def nextAt (a : IceAgent) (now : Nat) : Option (Nat × Bool) := (a.retransmit now).1.nextCheck.1

/-- Start the next check. -/
def startCheck (a : IceAgent) (now : Nat) (tid : TransactionId) : IceAgent × List Outgoing :=
  match a.nextCheck with
  | (none, a) => (a, [])
  | (some (idx, nominate), a) =>
    let (a, out) := a.sendCheck hmac idx nominate now tid
    (a, out.toList)

def tickAt (a : IceAgent) (now : Nat) (tid : TransactionId) : IceAgent × List Outgoing :=
  match a.state with
  | .failed => (a, [])
  | .completed => a.keepalive hmac now tid
  | .checking =>
    let (a, out) := a.retransmit now
    let (a, new) := if a.paced now then a.startCheck hmac now tid else (a, [])
    (a.updateFailure, out ++ new)

/-! ## inbound handling -/

def errorReply (request : StunMessage) (code : UInt16) (reason : String) (key : Option Bytes) :
    Option Bytes :=
  ((StunMessage.newBindingError request code reason.toList).encodeWith hmac key true).toOption

/-- `local_ufrag:remote_ufrag` -/
def expectedUsername (a : IceAgent) : Text :=
  a.params.localUfrag.toList ++ [':'] ++ a.params.remoteUfrag.toList

/-- The agent with the larger tie-breaker keeps its role; none is a 487. -/
def resolveRole (a : IceAgent) (msg : StunMessage) : Option IceAgent :=
  match a.role, msg.iceControlling, msg.iceControlled with
  | .controlling, some theirs, _ =>
    if theirs ≤ a.params.tieBreaker then none else some (a.switchRole .controlled)
  | .controlled, _, some theirs =>
    if theirs ≤ a.params.tieBreaker then some (a.switchRole .controlling) else none
  | _, _, _ => some a

/-- A source that is no candidate is a peer-reflexive one. -/
def learnRemotePrflx (a : IceAgent) (msg : StunMessage) (source localAddr : SocketAddr) : IceAgent :=
  let component := ((a.localCandidates.find? fun c => decide (c.addr = localAddr)).map
    IceCandidate.component).getD 1
  if a.remoteCandidates.any fun c => decide (c.addr = source) then a
  else
    a.addRemoteCandidate
      { foundation := "prflx" ++ toString a.remoteCandidates.length
        component := component
        transport := "UDP"
        priority := msg.priority.getD 0
        address := source.ip
        port := source.port
        candidateType := "prflx" }

/-- The peer's USE-CANDIDATE, noted on the pair. -/
def noteNomination (a : IceAgent) (msg : StunMessage) (idx : Nat) : IceAgent :=
  if msg.useCandidate && decide (a.role = .controlled) then
    { a with pairs := a.pairs.modify idx fun p => { p with nominateRequested := true } }
  else a

/-- A check arrived on a pair: it is nominated, or a check of its own is due. -/
def trigger (a : IceAgent) (idx : Nat) (clock : Nat) : IceAgent :=
  match a.pairs[idx]? with
  | none => a
  | some p =>
    match p.state with
    | .succeeded => if p.nominateRequested then a.nominate idx clock else a
    | .inProgress => a
    | .waiting | .frozen => { a with triggered := a.triggered ++ [(idx, false)] }
    | .failed =>
      if p.authFailed then a
      else
        let a := a.setPairState idx .waiting
        { a with triggered := a.triggered ++ [(idx, false)] }

/-- What an authenticated check does to the pair it arrived on. -/
def onPair (a : IceAgent) (msg : StunMessage) (source localAddr : SocketAddr) (clock : Nat) :
    IceAgent :=
  match a.findPair localAddr source with
  | none => a
  | some idx => ((a.noteNomination msg idx).trigger idx clock).revive

/-- The request is one of the peer's. -/
def authentic (a : IceAgent) (msg : StunMessage) (raw : Bytes) : Bool :=
  decide (msg.username = some a.expectedUsername) && verifyMessageIntegrity hmac raw a.localKey

def handleRequest (a : IceAgent) (msg : StunMessage) (raw : Bytes) (source localAddr : SocketAddr)
    (clock : Nat) : IceAgent × Option Bytes :=
  if !msg.hasFingerprint || !verifyFingerprint raw then (a, none)
  else if msg.username.isNone || !msg.hasMessageIntegrity then
    (a, errorReply hmac msg ERR_BAD_REQUEST "Bad Request" none)
  else if !a.authentic hmac msg raw then
    (a, errorReply hmac msg ERR_UNAUTHENTICATED "Unauthenticated" none)
  else
    match a.resolveRole msg with
    | none => (a, errorReply hmac msg ERR_ROLE_CONFLICT "Role Conflict" (some a.localKey))
    | some a =>
      ((a.learnRemotePrflx msg source localAddr).onPair msg source localAddr clock,
        ((StunMessage.newBindingResponse msg source).encodeWith hmac
          (some a.localKey) true).toOption)

/-- A mapped address that is no candidate is a peer-reflexive local one. -/
def learnLocalPrflx (a : IceAgent) (mapped : SocketAddr) (base : IceCandidate) : IceAgent :=
  if a.localCandidates.any fun c => decide (c.addr = mapped) then a
  else
    { a with localCandidates := a.localCandidates ++ [
      { foundation := "prflx" ++ toString a.localCandidates.length
        component := base.component
        transport := "UDP"
        priority := prflxPriority base
        address := mapped.ip
        port := mapped.port
        candidateType := "prflx"
        relatedAddress := some base.address
        relatedPort := some base.port }] }

/-- The pending check a response answers, and the others. -/
def takePending (a : IceAgent) (tid : TransactionId) : Option (PendingCheck × IceAgent) :=
  match a.pending.findIdx? fun c => decide (c.transactionId = tid) with
  | none => none
  | some pos =>
    (a.pending[pos]?).map fun c => (c, { a with pending := a.pending.eraseIdx pos })

/-- The address the peer saw. -/
def noteMapped (a : IceAgent) (idx : Nat) (pair : IcePair) : Option SocketAddr → IceAgent
  | none => a
  | some mapped =>
    ({ a with pairs := a.pairs.modify idx fun p => { p with mappedAddress := some mapped } } :
      IceAgent).learnLocalPrflx mapped pair.localCand

/-- A check succeeded: its pair is nominated, or is the first one that may be. -/
def concludeCheck (a : IceAgent) (c : PendingCheck) (requested : Bool) (clock : Nat) : IceAgent :=
  let a := a.setPairState c.pairIdx .succeeded
  if c.nominating || requested then a.nominate c.pairIdx clock
  else if decide (a.role = .controlling) && !a.nominationInFlight && a.selected.isNone then
    { a with nominationInFlight := true, triggered := (c.pairIdx, true) :: a.triggered }
  else a

def handleSuccess (a : IceAgent) (msg : StunMessage) (raw : Bytes) (source localAddr : SocketAddr)
    (clock : Nat) : IceAgent :=
  match a.takePending msg.transactionId with
  | none => a
  | some (c, taken) =>
    if !verifyFingerprint raw || !verifyMessageIntegrity hmac raw a.remoteKey then a
    else
      match a.pairs[c.pairIdx]? with
      | none => a
      | some pair =>
        if source ≠ pair.remoteAddr ∨ localAddr ≠ pair.localAddr then
          ((taken.setPairState c.pairIdx .failed).endNomination c).updateFailure
        else
          (taken.noteMapped c.pairIdx pair msg.xorMappedAddress).concludeCheck c
            pair.nominateRequested clock

/-- The other role. -/
def otherRole : IceRole → IceRole
  | .controlling => .controlled
  | .controlled => .controlling

/-- A 487: the role is given up and the check repeated at once. -/
def onRoleConflict (a : IceAgent) (c : PendingCheck) : IceAgent :=
  let a := (a.switchRole (otherRole a.role)).setPairState c.pairIdx .waiting
  { a with
    nominationInFlight := false
    triggered := a.triggered ++ [(c.pairIdx, false)]
    lastCheckSent := none }

/-- Any other error: the pair has failed. -/
def onRejected (a : IceAgent) (c : PendingCheck) (code : UInt16) : IceAgent :=
  let a := { a with pairs := a.pairs.modify c.pairIdx fun p =>
    { p with state := .failed, authFailed := decide (code = ERR_UNAUTHENTICATED) } }
  (a.endNomination c).updateFailure

def handleError (a : IceAgent) (msg : StunMessage) (raw : Bytes) : IceAgent :=
  match a.takePending msg.transactionId with
  | none => a
  | some (c, taken) =>
    let code := (msg.errorCode.map ErrorCode.code).getD 0
    if code = ERR_ROLE_CONFLICT then
      if !verifyMessageIntegrity hmac raw a.remoteKey then a else taken.onRoleConflict c
    else taken.onRejected c code

/-- A datagram received on the socket bound to `localAddr`; the reply goes back
to `source` on it. -/
def handleDatagramAt (a : IceAgent) (raw : Bytes) (source localAddr : SocketAddr) (clock : Nat) :
    IceAgent × Option Bytes :=
  match decode raw with
  | .error _ => (a, none)
  | .ok msg =>
    match msg.kind with
    | .request => a.handleRequest hmac msg raw source localAddr clock
    | .successResponse => (a.handleSuccess hmac msg raw source localAddr clock, none)
    | .errorResponse => (a.handleError hmac msg raw, none)
    | .indication => (a, none)

end IceAgent

/-! ## runs -/

/-- What the driver calls the agent with. -/
inductive Event
  | tick (now : Nat) (tid : TransactionId)
  | datagram (raw : Bytes) (source localAddr : SocketAddr) (clock : Nat)
  | addRemote (c : IceCandidate)

namespace IceAgent

variable (hmac : Hmac)

def handle (a : IceAgent) : Event → IceAgent
  | .tick now tid => (a.tickAt hmac now tid).1
  | .datagram raw source localAddr clock => (a.handleDatagramAt hmac raw source localAddr clock).1
  | .addRemote c => a.addRemoteCandidate c

/-- Every call is possible in every state. -/
def step (a : IceAgent) (e : Event) : Option IceAgent := some (a.handle hmac e)

/-- The states an agent can get to. -/
def Reachable (a : IceAgent) : Prop :=
  ∃ params locals remotes sockets es, exec (step hmac) (new params locals remotes sockets) es = some a

end IceAgent

/-! ## samples -/

/-- A checksum under a key. -/
def sampleHmac : Hmac := fun key msg =>
  ⟨List.replicate INTEGRITY_LEN ((key ++ msg).foldl (fun acc b => acc * 31 + b) 7), List.length_replicate⟩

def sampleTid (n : UInt8) : TransactionId := ⟨List.replicate 12 n, List.length_replicate⟩

/-- An address of the host. -/
def sampleAddr (port : UInt16) : SocketAddr := .v4 0x7F000001#32 port

def sampleCandidate (port : UInt16) (priority : UInt32) : IceCandidate where
  foundation := "host"
  component := 1
  transport := "UDP"
  priority := priority
  address := .v4 0x7F000001#32
  port := port
  candidateType := "host"

def sampleParams (role : IceRole) (tieBreaker : UInt64) : IceParams :=
  ⟨"a", "pa", "b", "pb", role, tieBreaker⟩

/-- An agent at port 1, its peer at port 2. -/
def sampleAgent (role : IceRole) : IceAgent :=
  .new (sampleParams role 5) [sampleCandidate 1 100] [sampleCandidate 2 100] [sampleAddr 1]

/-- A message on the wire. -/
def sampleBytes (m : StunMessage) (key : String) : Bytes :=
  (m.encodeWith sampleHmac (some (toUtf8 key.toList)) true).toOption.getD []

/-- The peer's answer to the check with this id. -/
def sampleSuccess (n : UInt8) : Bytes :=
  sampleBytes (.newBindingResponse (.newBindingRequest (sampleTid n)) (sampleAddr 1)) "pb"

/-- A check of the peer. -/
def sampleRequest (n : UInt8) (change : StunMessage → StunMessage) : Bytes :=
  sampleBytes (change { StunMessage.newBindingRequest (sampleTid n) with
    username := some "a:b".toList, priority := some 7 }) "pa"

end SmithsNet.Ice
