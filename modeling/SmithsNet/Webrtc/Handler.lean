import SmithsNet.Lib.Exec
import SmithsNet.Lib.Slots
import SmithsNet.Lib.Table

/-!
# SmithsNet.Webrtc.Handler

The WebRTC signalling of the engine (`smiths-sip/src/webrtc.rs`,
`smiths-cli/src/webrtc.rs`): connections whose frames are handled one after the
other, the offers they make, the legs that wait under a tag for their partner, and
the maps all of them share.

Everything that happens between two awaits, or between two accesses to the map of
parked legs, is one action.  An offer goes through negotiation, connectivity checks
and a handshake, each of which may fail; then it takes the leg that is parked under
its tag, or is parked itself.  SIP dialogs do the same with their own legs.  A leg is
the place of its offer in `ops`, and so are its endpoint, its agent, its keepalive
task and its evictor; what becomes of them is noted there.
-/

namespace SmithsNet.Webrtc

open Lib
open Option (bind_eq_some_iff)

/-- `WebTransportSessionId`; those of connections are `0, 1, 2, …` -/
abbrev SessionId := Nat

/-- How a parked leg has left without being paired. -/
inductive Departure
  /-- A bye for this session removed it. -/
  | bye (session : SessionId)
  /-- The evictor of this leg removed it. -/
  | deadline (i : Nat)
  /-- This leg was parked in its place. -/
  | overwritten (i : Nat)
  /-- This leg took it, and their bridge could not be installed. -/
  | stranded (i : Nat)
  deriving DecidableEq

/-- Where an offer, or the leg of a SIP dialog, is. -/
inductive Phase
  /-- Its endpoint is allocated. -/
  | negotiating
  | checking
  | securing
  /-- It is about to look for a leg under its tag. -/
  | looking
  /-- There was none, and it is about to be parked. -/
  | parking
  | parked
  /-- It has taken this leg, and the fabric installs their bridge. -/
  | bridging (partner : Nat)
  /-- It was taken by this leg. -/
  | taken (partner : Nat)
  | paired (bridge : Nat)
  /-- It is answered, and has no tag. -/
  | single
  | failed
  | gone (how : Departure)
  deriving DecidableEq

/-- What has become of a leg's ICE agent. -/
inductive AgentFate
  | unbuilt
  | registered
  /-- Its session has hung up, or its checks have failed. -/
  | dropped
  /-- This offer has taken its place, or removed it. -/
  | displaced (i : Nat)
  deriving DecidableEq

/-- An offer or the leg of a SIP dialog. -/
structure Op where
  /-- The connection of an offer. -/
  conn : Option Nat
  /-- A SIP leg has none until it is parked. -/
  session : Option SessionId
  tag : Option String
  phase : Phase
  /-- Its endpoint is not released. -/
  endpoint : Bool := true
  /-- DTLS-SRTP was negotiated. -/
  dtls : Bool := false
  agent : AgentFate := .unbuilt
  /-- The agent's remote candidates, as texts. -/
  remotes : List String := []
  /-- Its keepalive task runs. -/
  keepalive : Bool := false
  /-- Its evictor sleeps. -/
  evictor : Bool := false
  /-- Its dialog has ended. -/
  ended : Bool := false

/-- The session a bridge is entered for; a dialog keeps its own. -/
def Op.entered (op : Op) : Option SessionId := op.conn.bind fun _ => op.session

inductive FrameKind
  | offer | candidate | bye
  deriving DecidableEq

inductive Reply
  | answer
  | error (code : String)
  deriving DecidableEq

/-- A frame that was handled: whether it named the connection's own session, and what
was replied. -/
structure Handled where
  kind : FrameKind
  own : Bool
  reply : Option Reply
  deriving DecidableEq

/-- The frame that is being handled. -/
inductive Task
  | offer (i : Nat)
  /-- A bye looks for the session's leg. -/
  | finding (session : SessionId)
  /-- It has found one under this tag. -/
  | removing (session : SessionId) (tag : String)
  deriving DecidableEq

structure Conn where
  session : Option SessionId := none
  task : Option Task := none
  closed : Bool := false
  /-- The last frame was a bye for the connection's session. -/
  hungUp : Bool := false
  log : List Handled := []

structure SessionInfo where
  conn : Nat
  tag : Option String
  deriving DecidableEq

structure Bridge where
  first : Nat
  second : Nat
  live : Bool := true

structure State where
  conns : List Conn := []
  /-- The sessions that were opened, by their ids. -/
  sessions : List SessionInfo := []
  ops : List Op := []
  bridges : List Bridge := []
  pending : Table String Nat := .empty
  active : Table SessionId Nat := .empty
  iceAgents : Table SessionId Nat := .empty
  iceKeepalives : Table SessionId Nat := .empty
  /-- `next_sip_pending_suffix` -/
  suffix : Nat := 0

/-- What ICE comes to before its first check. -/
inductive IceStart
  /-- It is off, or the offer has no credentials, or the endpoint is gone. -/
  | off
  /-- The socket has no address. -/
  | broken
  | on (remotes : List String)

inductive Negotiated
  /-- No common codec, an unsupported transport, a malformed text or no usable
  endpoint. -/
  | rejected
  | accepted (ice : IceStart) (dtls : Bool)

namespace State

variable (s : State)

def setOp (i : Nat) (f : Op → Op) : State := { s with ops := s.ops.modify i f }

def setConn (c : Nat) (f : Conn → Conn) : State := { s with conns := s.conns.modify c f }

/-- The answer to an offer goes out; a SIP leg has none. -/
def reply (i : Nat) (r : Reply) : State :=
  match s.ops[i]?.bind Op.conn with
  | some c => s.setConn c fun k => { k with task := none, log := k.log ++ [⟨.offer, true, some r⟩] }
  | none => s

/-- The offer is rejected, and its endpoint released. -/
def reject (i : Nat) : State :=
  (s.setOp i fun op => { op with phase := .failed, endpoint := false }).reply i (.error "offer-rejected")

/-! ## frames -/

/-- A connection that can handle a frame. -/
def idle (c : Nat) : Option Conn := do
  let k ← s.conns[c]?
  if k.closed = false ∧ k.task = none then return k else none

def init (c : Nat) (tag : Option String) : Option State := do
  let _ ← s.idle c
  let id := s.sessions.length
  let info : SessionInfo := ⟨c, tag⟩
  let s := { s with sessions := s.sessions ++ [info] }
  return s.setConn c fun k => { k with session := some id, hungUp := false }

/-- An offer must name the connection's session.  It may be rejected by the privacy
filter, or get no endpoint. -/
def offer (c : Nat) (session : SessionId) (clean allocated : Bool) : Option State := do
  let k ← s.idle c
  if k.session = some session then
    if clean && allocated then
      let tag := s.sessions[session]?.bind SessionInfo.tag
      let op : Op := { conn := some c, session := some session, tag := tag, phase := .negotiating }
      let s' := { s with ops := s.ops ++ [op] }
      return s'.setConn c fun k => { k with task := some (.offer s.ops.length), hungUp := false }
    else
      return s.setConn c fun k =>
        { k with hungUp := false, log := k.log ++ [⟨.offer, true, some (.error "offer-rejected")⟩] }
  else
    return s.setConn c fun k =>
      { k with hungUp := false, log := k.log ++ [⟨.offer, false, some (.error "unknown-session")⟩] }

/-- `handle_ice_candidate`, for whatever session is named. -/
def candidate (c : Nat) (session : SessionId) (raw : String) (wellFormed : Bool) : Option State := do
  let _ ← s.idle c
  let s := s.setConn c fun k =>
    { k with hungUp := false, log := k.log ++ [⟨.candidate, decide (k.session = some session), none⟩] }
  if wellFormed then
    match s.iceAgents session with
    | some i => return s.setOp i fun op => { op with remotes := op.remotes ++ [raw] }
    | none => return s
  else return s

/-- The bridge of a session is released. -/
def releaseBridge (session : SessionId) : State :=
  match s.active session with
  | some b => { s with active := s.active.erase session, bridges := s.bridges.modify b fun x => { x with live := false } }
  | none => s

/-- The session's keepalive task is cancelled. -/
def cancelKeepalive (session : SessionId) : State :=
  match s.iceKeepalives session with
  | some i => { s.setOp i fun op => { op with keepalive := false } with iceKeepalives := s.iceKeepalives.erase session }
  | none => s

/-- The session's agent is forgotten; `fate` says what that is to it. -/
def removeAgent (session : SessionId) (fate : Nat → AgentFate) : State :=
  match s.iceAgents session with
  | some i => { s.setOp i fun op => { op with agent := fate i } with iceAgents := s.iceAgents.erase session }
  | none => s

/-- `handle_bye`, for whatever session is named, up to the search for its leg. -/
def bye (c : Nat) (session : SessionId) : Option State := do
  let _ ← s.idle c
  let s := ((s.cancelKeepalive session).removeAgent session fun _ => .dropped).releaseBridge session
  return s.setConn c fun k => { k with task := some (.finding session), hungUp := false }

/-- The bye is done with. -/
def byeDone (c : Nat) (session : SessionId) : State :=
  s.setConn c fun k =>
    { k with task := none, hungUp := decide (k.session = some session)
             log := k.log ++ [⟨.bye, decide (k.session = some session), none⟩] }

/-- The leg parked under a tag is one of the session's. -/
def parkedFor (session : SessionId) (tag : String) : Bool :=
  match s.pending tag with
  | some i => decide (s.ops[i]?.bind Op.session = some session)
  | none => false

/-- `pending.iter().find(…)`, in whatever order. -/
def find (c : Nat) (found : Option String) : Option State := do
  let k ← s.conns[c]?
  match k.task with
  | some (.finding session) =>
    match found with
    | some tag =>
      if s.parkedFor session tag then return s.setConn c fun k => { k with task := some (.removing session tag) }
      else none
    | none =>
      if s.ops.all fun op => (op.tag.map (s.parkedFor session)).getD false = false then return s.byeDone c session
      else none
  | _ => none

/-- `pending.remove(&tag)`, whatever is parked there. -/
def remove (c : Nat) : Option State := do
  let k ← s.conns[c]?
  match k.task with
  | some (.removing session tag) =>
    match s.pending tag with
    | some i =>
      let s := { s with pending := s.pending.erase tag }
      let s := s.setOp i fun op => { op with evictor := false, endpoint := false, phase := .gone (.bye session) }
      return s.byeDone c session
    | none => return s.byeDone c session
  | _ => none

/-- `Echo` and frames that are ignored or malformed. -/
def other (c : Nat) : Option State := do
  let _ ← s.idle c
  return s.setConn c fun k => { k with hungUp := false }

/-- The loop of `handle_socket` ends. -/
def close (c : Nat) : Option State := do
  let _ ← s.idle c
  return s.setConn c fun k => { k with closed := true }

/-! ## offers -/

/-- The agent of an offer is registered under the session. -/
def registerAgent (i : Nat) (session : SessionId) (remotes : List String) : State :=
  let s := match s.iceAgents session with
    | some j => s.setOp j fun op => { op with agent := .displaced i }
    | none => s
  { s.setOp i fun op => { op with agent := .registered, remotes := remotes } with
    iceAgents := s.iceAgents.insert session i }

/-- The checks of an offer have failed: whichever agent the session has is removed. -/
def failChecks (i : Nat) (session : SessionId) : State :=
  (s.removeAgent session fun j => if j = i then .dropped else .displaced i).reject i

def negotiated (i : Nat) (outcome : Negotiated) : Option State := do
  let op ← s.ops[i]?
  let _ ← op.conn
  let session ← op.session
  if op.phase = .negotiating then
    match outcome with
    | .rejected => return s.reject i
    | .accepted .off dtls => return s.setOp i fun op => { op with dtls := dtls, phase := .securing }
    | .accepted .broken _ => return s.failChecks i session
    | .accepted (.on remotes) dtls =>
      return (s.registerAgent i session remotes).setOp i fun op => { op with dtls := dtls, phase := .checking }
  else none

/-- The checks have ended; the token of an earlier keepalive task is lost. -/
def checked (i : Nat) (ok : Bool) : Option State := do
  let op ← s.ops[i]?
  let _ ← op.conn
  let session ← op.session
  if op.phase = .checking then
    if ok then
      return { s.setOp i fun op => { op with keepalive := true, phase := .securing } with
        iceKeepalives := s.iceKeepalives.insert session i }
    else return s.failChecks i session
  else none

/-- The handshake has ended, if there is one. -/
def secured (i : Nat) (ok : Bool) : Option State := do
  let op ← s.ops[i]?
  if op.phase = .securing then
    if ok then
      match op.tag with
      | some _ => return s.setOp i fun op => { op with phase := .looking }
      | none => return (s.setOp i fun op => { op with phase := .single }).reply i .answer
    else if op.dtls then return s.reject i
    else none
  else none

/-! ## rendezvous -/

/-- `pending.remove(tag)` -/
def look (i : Nat) : Option State := do
  let op ← s.ops[i]?
  let tag ← op.tag
  if op.phase = .looking then
    match s.pending tag with
    | some j =>
      let s := { s with pending := s.pending.erase tag }
      let s := s.setOp j fun op => { op with evictor := false, phase := .taken i }
      return s.setOp i fun op => { op with phase := .bridging j }
    | none => return s.setOp i fun op => { op with phase := .parking }
  else none

/-- The id a SIP leg is parked under. -/
def syntheticSession : SessionId := 4294967295 - s.suffix % 4294967296

/-- A leg is put under a tag, in the place of another that may be there. -/
def overwrite (i : Nat) (tag : String) : State :=
  match s.pending tag with
  | some j => { s.setOp j fun op => { op with phase := .gone (.overwritten i) } with pending := s.pending.insert tag i }
  | none => { s with pending := s.pending.insert tag i }

/-- `pending.insert(tag, …)` -/
def park (i : Nat) : Option State := do
  let op ← s.ops[i]?
  let tag ← op.tag
  if op.phase = .parking then
    match op.conn with
    | some _ => return ((s.overwrite i tag).setOp i fun op => { op with phase := .parked, evictor := true }).reply i .answer
    | none =>
      let parked := (s.overwrite i tag).setOp i fun op =>
        { op with phase := .parked, evictor := true, session := some s.syntheticSession }
      return { parked with suffix := s.suffix + 1 }
  else none

/-- A bridge is entered for a session. -/
def enter (session : Option SessionId) (b : Nat) : State :=
  match session with
  | some session => { s with active := s.active.insert session b }
  | none => s

/-- A bridge between two legs. -/
def install (i j : Nat) : State := { s with bridges := s.bridges ++ [{ first := i, second := j }] }

def bridged (i : Nat) (ok : Bool) : Option State := do
  let op ← s.ops[i]?
  match op.phase with
  | .bridging j => do
      let partner ← s.ops[j]?
      if ok then
        -- the fabric knows both endpoints
        if op.endpoint && partner.endpoint then
          let b := s.bridges.length
          let entered := ((s.install i j).enter op.entered b).enter partner.session b
          let paired := (entered.setOp j fun op => { op with phase := .paired b }).setOp i fun op =>
            { op with phase := .paired b }
          return paired.reply i .answer
        else none
      else
        let stranded := s.setOp j fun op => { op with phase := .gone (.stranded i) }
        return (stranded.setOp i fun op => { op with phase := .failed }).reply i (.error "offer-rejected")
  | _ => none

/-- The deadline of a leg has passed: `remove_if(tag, |p| p.session == session)`. -/
def evict (i : Nat) : Option State := do
  let op ← s.ops[i]?
  let tag ← op.tag
  let session ← op.session
  if op.evictor then
    let s := s.setOp i fun op => { op with evictor := false }
    match s.pending tag with
    | some j =>
      if s.parkedFor session tag then
        let s := { s with pending := s.pending.erase tag }
        return s.setOp j fun op => { op with endpoint := false, phase := .gone (.deadline i) }
      else return s
    | none => return s
  else none

/-- A keepalive could not be sent. -/
def stopKeepalive (i : Nat) : Option State := do
  let op ← s.ops[i]?
  if op.keepalive then return s.setOp i fun op => { op with keepalive := false } else none

/-! ## SIP -/

/-- A dialog with a tag and an endpoint is attached (`pair_sip_leg`). -/
def invite (tag : String) : State :=
  { s with ops := s.ops ++ [{ conn := none, session := none, tag := some tag, phase := .looking }] }

/-- A dialog is torn down: its endpoint and the bridge it has been told of are
released; its parked leg stays. -/
def endDialog (i : Nat) : Option State := do
  let op ← s.ops[i]?
  if op.conn = none ∧ op.ended = false then
    match op.phase with
    | .looking | .parking | .bridging _ => none
    | .paired b =>
      let s := s.setOp i fun op => { op with ended := true, endpoint := false }
      return { s with bridges := s.bridges.modify b fun x => if x.first = i then { x with live := false } else x }
    | _ => return s.setOp i fun op => { op with ended := true, endpoint := false }
  else none

end State

inductive Action
  | connect
  | init (c : Nat) (tag : Option String)
  | offer (c : Nat) (session : SessionId) (clean allocated : Bool)
  | candidate (c : Nat) (session : SessionId) (raw : String) (wellFormed : Bool)
  | bye (c : Nat) (session : SessionId)
  | find (c : Nat) (found : Option String)
  | remove (c : Nat)
  | other (c : Nat)
  | close (c : Nat)
  | negotiated (i : Nat) (outcome : Negotiated)
  | checked (i : Nat) (ok : Bool)
  | secured (i : Nat) (ok : Bool)
  | look (i : Nat)
  | park (i : Nat)
  | bridged (i : Nat) (ok : Bool)
  | evict (i : Nat)
  | stopKeepalive (i : Nat)
  | invite (tag : String)
  | endDialog (i : Nat)

def State.step (s : State) : Action → Option State
  | .connect => some { s with conns := s.conns ++ [{}] }
  | .init c tag => s.init c tag
  | .offer c session clean allocated => s.offer c session clean allocated
  | .candidate c session raw wellFormed => s.candidate c session raw wellFormed
  | .bye c session => s.bye c session
  | .find c found => s.find c found
  | .remove c => s.remove c
  | .other c => s.other c
  | .close c => s.close c
  | .negotiated i outcome => s.negotiated i outcome
  | .checked i ok => s.checked i ok
  | .secured i ok => s.secured i ok
  | .look i => s.look i
  | .park i => s.park i
  | .bridged i ok => s.bridged i ok
  | .evict i => s.evict i
  | .stopKeepalive i => s.stopKeepalive i
  | .invite tag => some (s.invite tag)
  | .endDialog i => s.endDialog i

/-! ## what a step can do -/

/-- What each step asks for, and what it leads to. -/
inductive State.Moves (s : State) : Action → State → Prop
  | connect : s.Moves .connect { s with conns := s.conns ++ [{}] }
  | init {c : Nat} {tag : Option String} : s.Moves (.init c tag)
      (({ s with sessions := s.sessions ++ [⟨c, tag⟩] } : State).setConn c fun k =>
        { k with session := some s.sessions.length, hungUp := false })
  | offer {c : Nat} {session : SessionId} {k : Conn} (hidle : s.idle c = some k) (hown : k.session = some session) :
      s.Moves (.offer c session true true)
        (({ s with ops := s.ops ++
            [{ conn := some c, session := some session,
               tag := s.sessions[session]?.bind SessionInfo.tag
               phase := .negotiating }] } : State).setConn c fun k =>
          { k with task := some (.offer s.ops.length), hungUp := false })
  | turnDown {c : Nat} {session : SessionId} {clean allocated : Bool} (own : Bool) (code : String) :
      s.Moves (.offer c session clean allocated)
        (s.setConn c fun k => { k with hungUp := false, log := k.log ++ [⟨.offer, own, some (.error code)⟩] })
  | note {c : Nat} {session : SessionId} {raw : String} {wellFormed : Bool} : s.Moves (.candidate c session raw wellFormed)
      (s.setConn c fun k =>
        { k with hungUp := false, log := k.log ++ [⟨.candidate, decide (k.session = some session), none⟩] })
  | candidate {c : Nat} {session : SessionId} {raw : String} {i : Nat} (hagent : s.iceAgents session = some i) :
      s.Moves (.candidate c session raw true)
        ((s.setConn c fun k =>
            { k with hungUp := false, log := k.log ++ [⟨.candidate, decide (k.session = some session), none⟩] }).setOp i
          fun op => { op with remotes := op.remotes ++ [raw] })
  | bye {c : Nat} {session : SessionId} : s.Moves (.bye c session)
      ((((s.cancelKeepalive session).removeAgent session fun _ => .dropped).releaseBridge session).setConn c fun k =>
        { k with task := some (.finding session), hungUp := false })
  | found {c : Nat} {session : SessionId} {tag : String} {k : Conn} (hk : s.conns[c]? = some k)
      (htask : k.task = some (.finding session)) : s.Moves (.find c (some tag))
      (s.setConn c fun k => { k with task := some (.removing session tag) })
  | miss {c : Nat} {session : SessionId} {k : Conn} (hk : s.conns[c]? = some k) (htask : k.task = some (.finding session)) :
      s.Moves (.find c none) (s.byeDone c session)
  | remove {c : Nat} {session : SessionId} {tag : String} {i : Nat} {k : Conn} (hk : s.conns[c]? = some k)
      (htask : k.task = some (.removing session tag)) (hpending : s.pending tag = some i) : s.Moves (.remove c)
      ((({ s with pending := s.pending.erase tag } : State).setOp i fun op =>
        { op with evictor := false, endpoint := false, phase := .gone (.bye session) }).byeDone c session)
  | removeNothing {c : Nat} {session : SessionId} {tag : String} {k : Conn} (hk : s.conns[c]? = some k)
      (htask : k.task = some (.removing session tag)) (hpending : s.pending tag = none) :
      s.Moves (.remove c) (s.byeDone c session)
  | other {c : Nat} : s.Moves (.other c) (s.setConn c fun k => { k with hungUp := false })
  | close {c : Nat} {k : Conn} (hidle : s.idle c = some k) :
      s.Moves (.close c) (s.setConn c fun k => { k with closed := true })
  | rejected {i c : Nat} {session : SessionId} {op : Op} (hop : s.ops[i]? = some op) (hconn : op.conn = some c)
      (hsession : op.session = some session) (hphase : op.phase = .negotiating) :
      s.Moves (.negotiated i .rejected) (s.reject i)
  | withoutIce {i c : Nat} {session : SessionId} {dtls : Bool} {op : Op}
      (hop : s.ops[i]? = some op) (hconn : op.conn = some c)
      (hsession : op.session = some session) (hphase : op.phase = .negotiating) :
      s.Moves (.negotiated i (.accepted .off dtls)) (s.setOp i fun op => { op with dtls := dtls, phase := .securing })
  | brokenIce {i c : Nat} {session : SessionId} {dtls : Bool} {op : Op} (hop : s.ops[i]? = some op) (hconn : op.conn = some c)
      (hsession : op.session = some session) (hphase : op.phase = .negotiating) :
      s.Moves (.negotiated i (.accepted .broken dtls)) (s.failChecks i session)
  | withIce {i c : Nat} {session : SessionId} {remotes : List String} {dtls : Bool} {op : Op} (hop : s.ops[i]? = some op)
      (hconn : op.conn = some c) (hsession : op.session = some session) (hphase : op.phase = .negotiating) :
      s.Moves (.negotiated i (.accepted (.on remotes) dtls))
        ((s.registerAgent i session remotes).setOp i fun op => { op with dtls := dtls, phase := .checking })
  | checked {i c : Nat} {session : SessionId} {op : Op} (hop : s.ops[i]? = some op) (hconn : op.conn = some c)
      (hsession : op.session = some session) (hphase : op.phase = .checking) : s.Moves (.checked i true)
      { s.setOp i fun op => { op with keepalive := true, phase := .securing } with
        iceKeepalives := s.iceKeepalives.insert session i }
  | unchecked {i c : Nat} {session : SessionId} {op : Op} (hop : s.ops[i]? = some op) (hconn : op.conn = some c)
      (hsession : op.session = some session) (hphase : op.phase = .checking) :
      s.Moves (.checked i false) (s.failChecks i session)
  | tagged {i : Nat} {tag : String} {op : Op} (hop : s.ops[i]? = some op) (hphase : op.phase = .securing)
      (htag : op.tag = some tag) : s.Moves (.secured i true) (s.setOp i fun op => { op with phase := .looking })
  | single {i : Nat} {op : Op} (hop : s.ops[i]? = some op) (hphase : op.phase = .securing) (htag : op.tag = none) :
      s.Moves (.secured i true) ((s.setOp i fun op => { op with phase := .single }).reply i .answer)
  | unsecured {i : Nat} {op : Op} (hop : s.ops[i]? = some op) (hphase : op.phase = .securing) :
      s.Moves (.secured i false) (s.reject i)
  | meet {i j : Nat} {tag : String} {op : Op} (hop : s.ops[i]? = some op) (htag : op.tag = some tag)
      (hphase : op.phase = .looking) (hpending : s.pending tag = some j) : s.Moves (.look i)
      ((({ s with pending := s.pending.erase tag } : State).setOp j fun op =>
        { op with evictor := false, phase := .taken i }).setOp i fun op => { op with phase := .bridging j })
  | wait {i : Nat} {tag : String} {op : Op} (hop : s.ops[i]? = some op) (htag : op.tag = some tag)
      (hphase : op.phase = .looking) (hpending : s.pending tag = none) :
      s.Moves (.look i) (s.setOp i fun op => { op with phase := .parking })
  | park {i c : Nat} {tag : String} {op : Op} (hop : s.ops[i]? = some op) (htag : op.tag = some tag)
      (hphase : op.phase = .parking) (hconn : op.conn = some c) : s.Moves (.park i)
      (((s.overwrite i tag).setOp i fun op => { op with phase := .parked, evictor := true }).reply i .answer)
  | parkDialog {i : Nat} {tag : String} {op : Op} (hop : s.ops[i]? = some op) (htag : op.tag = some tag)
      (hphase : op.phase = .parking) (hconn : op.conn = none) : s.Moves (.park i)
      { (s.overwrite i tag).setOp i fun op =>
          { op with phase := .parked, evictor := true, session := some s.syntheticSession } with suffix := s.suffix + 1 }
  | bridge {i j : Nat} {op partner : Op} (hop : s.ops[i]? = some op) (hphase : op.phase = .bridging j)
      (hpartner : s.ops[j]? = some partner) : s.Moves (.bridged i true)
      ((((((s.install i j).enter op.entered s.bridges.length).enter partner.session s.bridges.length).setOp j fun op =>
        { op with phase := .paired s.bridges.length }).setOp i fun op =>
          { op with phase := .paired s.bridges.length }).reply i
          .answer)
  | strand {i j : Nat} {op partner : Op} (hop : s.ops[i]? = some op) (hphase : op.phase = .bridging j)
      (hpartner : s.ops[j]? = some partner) : s.Moves (.bridged i false)
      (((s.setOp j fun op => { op with phase := .gone (.stranded i) }).setOp i fun op => { op with phase := .failed }).reply i
        (.error "offer-rejected"))
  | evict {i j : Nat} {tag : String} {session : SessionId} {op : Op} (hop : s.ops[i]? = some op) (htag : op.tag = some tag)
      (hsession : op.session = some session) (hevictor : op.evictor = true) (hpending : s.pending tag = some j) :
      s.Moves (.evict i)
        (({ s.setOp i fun op => { op with evictor := false } with pending := s.pending.erase tag } : State).setOp j fun op =>
          { op with endpoint := false, phase := .gone (.deadline i) })
  | spare {i : Nat} {tag : String} {session : SessionId} {op : Op} (hop : s.ops[i]? = some op) (htag : op.tag = some tag)
      (hsession : op.session = some session) (hevictor : op.evictor = true)
      (hspare : ∀ j, s.pending tag = some j →
        (s.setOp i fun op => { op with evictor := false }).parkedFor session tag = false) :
      s.Moves (.evict i) (s.setOp i fun op => { op with evictor := false })
  | stopKeepalive {i : Nat} : s.Moves (.stopKeepalive i) (s.setOp i fun op => { op with keepalive := false })
  | invite {tag : String} : s.Moves (.invite tag) (s.invite tag)
  | hangUp {i b : Nat} {op : Op} (hop : s.ops[i]? = some op) (hdialog : op.conn = none) (hphase : op.phase = .paired b) :
      s.Moves (.endDialog i)
        { s.setOp i fun op => { op with ended := true, endpoint := false } with
          bridges := s.bridges.modify b fun x => if x.first = i then { x with live := false } else x }
  | endDialog {i : Nat} {op : Op} (hop : s.ops[i]? = some op) (hdialog : op.conn = none)
      (hquiet : op.phase ≠ .looking ∧ op.phase ≠ .parking ∧ ∀ j, op.phase ≠ .bridging j) :
      s.Moves (.endDialog i) (s.setOp i fun op => { op with ended := true, endpoint := false })

theorem State.moves_of_step {s s' : State} {a : Action} (hstep : s.step a = some s') : s.Moves a s' := by
  cases a with
  | connect =>
    cases hstep
    exact .connect
  | init c tag =>
    obtain ⟨k, -, hstep⟩ := bind_eq_some_iff.mp hstep
    cases hstep
    exact .init
  | offer c session clean allocated =>
    obtain ⟨k, hidle, hrest⟩ := bind_eq_some_iff.mp hstep
    split at hrest
    · next hown =>
      split at hrest
      · next hboth =>
        obtain ⟨rfl, rfl⟩ := Bool.and_eq_true_iff.mp hboth
        cases hrest
        exact .offer hidle hown
      · cases hrest
        exact .turnDown true _
    · cases hrest
      exact .turnDown false _
  | candidate c session raw wellFormed =>
    obtain ⟨k, -, hrest⟩ := bind_eq_some_iff.mp hstep
    dsimp only at hrest
    split at hrest
    · next hwell =>
      subst hwell
      split at hrest
      · next i hagent =>
        cases hrest
        exact .candidate hagent
      · cases hrest
        exact .note
    · cases hrest
      exact .note
  | bye c session =>
    obtain ⟨k, -, hstep⟩ := bind_eq_some_iff.mp hstep
    cases hstep
    exact .bye
  | find c found =>
    obtain ⟨k, hk, hstep⟩ := bind_eq_some_iff.mp hstep
    split at hstep
    · next session htask =>
      split at hstep
      · split at hstep
        · cases hstep
          exact .found hk htask
        · contradiction
      · split at hstep
        · cases hstep
          exact .miss hk htask
        · contradiction
    · contradiction
  | remove c =>
    obtain ⟨k, hk, hstep⟩ := bind_eq_some_iff.mp hstep
    split at hstep
    · next session tag htask =>
      split at hstep
      · next i hpending =>
        cases hstep
        exact .remove hk htask hpending
      · next hpending =>
        cases hstep
        exact .removeNothing hk htask hpending
    · contradiction
  | other c =>
    obtain ⟨k, -, hstep⟩ := bind_eq_some_iff.mp hstep
    cases hstep
    exact .other
  | close c =>
    obtain ⟨k, hidle, hstep⟩ := bind_eq_some_iff.mp hstep
    cases hstep
    exact .close hidle
  | negotiated i outcome =>
    obtain ⟨op, hop, hstep⟩ := bind_eq_some_iff.mp hstep
    obtain ⟨c, hconn, hstep⟩ := bind_eq_some_iff.mp hstep
    obtain ⟨session, hsession, hstep⟩ := bind_eq_some_iff.mp hstep
    split at hstep
    · next hphase =>
      split at hstep
      · cases hstep
        exact .rejected hop hconn hsession hphase
      · cases hstep
        exact .withoutIce hop hconn hsession hphase
      · cases hstep
        exact .brokenIce hop hconn hsession hphase
      · cases hstep
        exact .withIce hop hconn hsession hphase
    · contradiction
  | checked i ok =>
    obtain ⟨op, hop, hstep⟩ := bind_eq_some_iff.mp hstep
    obtain ⟨c, hconn, hstep⟩ := bind_eq_some_iff.mp hstep
    obtain ⟨session, hsession, hstep⟩ := bind_eq_some_iff.mp hstep
    split at hstep
    · next hphase =>
      cases ok with
      | true =>
        cases hstep
        exact .checked hop hconn hsession hphase
      | false =>
        cases hstep
        exact .unchecked hop hconn hsession hphase
    · contradiction
  | secured i ok =>
    obtain ⟨op, hop, hstep⟩ := bind_eq_some_iff.mp hstep
    split at hstep
    · next hphase =>
      cases ok with
      | true =>
        rw [if_pos rfl] at hstep
        split at hstep
        · next tag htag =>
          cases hstep
          exact .tagged hop hphase htag
        · next htag =>
          cases hstep
          exact .single hop hphase htag
      | false =>
        rw [if_neg Bool.false_ne_true] at hstep
        split at hstep
        · cases hstep
          exact .unsecured hop hphase
        · contradiction
    · contradiction
  | look i =>
    obtain ⟨op, hop, hstep⟩ := bind_eq_some_iff.mp hstep
    obtain ⟨tag, htag, hstep⟩ := bind_eq_some_iff.mp hstep
    split at hstep
    · next hphase =>
      split at hstep
      · next j hpending =>
        cases hstep
        exact .meet hop htag hphase hpending
      · next hpending =>
        cases hstep
        exact .wait hop htag hphase hpending
    · contradiction
  | park i =>
    obtain ⟨op, hop, hstep⟩ := bind_eq_some_iff.mp hstep
    obtain ⟨tag, htag, hstep⟩ := bind_eq_some_iff.mp hstep
    split at hstep
    · next hphase =>
      split at hstep
      · next c hconn =>
        cases hstep
        exact .park hop htag hphase hconn
      · next hconn =>
        cases hstep
        exact .parkDialog hop htag hphase hconn
    · contradiction
  | bridged i ok =>
    obtain ⟨op, hop, hstep⟩ := bind_eq_some_iff.mp hstep
    split at hstep
    · next j hphase =>
      obtain ⟨partner, hpartner, hstep⟩ := bind_eq_some_iff.mp hstep
      cases ok with
      | true =>
        rw [if_pos rfl] at hstep
        split at hstep
        · cases hstep
          exact .bridge hop hphase hpartner
        · contradiction
      | false =>
        cases hstep
        exact .strand hop hphase hpartner
    · contradiction
  | evict i =>
    obtain ⟨op, hop, hstep⟩ := bind_eq_some_iff.mp hstep
    obtain ⟨tag, htag, hstep⟩ := bind_eq_some_iff.mp hstep
    obtain ⟨session, hsession, hstep⟩ := bind_eq_some_iff.mp hstep
    split at hstep
    · next hevictor =>
      dsimp only at hstep
      split at hstep
      · next j hpending =>
        split at hstep
        · cases hstep
          exact .evict hop htag hsession hevictor hpending
        · next hnot =>
          cases hstep
          exact .spare hop htag hsession hevictor fun _ _ => Bool.eq_false_iff.mpr hnot
      · next hpending =>
        cases hstep
        refine .spare hop htag hsession hevictor fun j hj => ?_
        rw [show s.pending tag = none from hpending] at hj
        contradiction
    · contradiction
  | stopKeepalive i =>
    obtain ⟨op, -, hstep⟩ := bind_eq_some_iff.mp hstep
    split at hstep
    · cases hstep
      exact .stopKeepalive
    · contradiction
  | invite tag =>
    cases hstep
    exact .invite
  | endDialog i =>
    obtain ⟨op, hop, hstep⟩ := bind_eq_some_iff.mp hstep
    split at hstep
    · next hdialog =>
      split at hstep
      · contradiction
      · contradiction
      · contradiction
      · next b hphase =>
        cases hstep
        exact .hangUp hop hdialog.1 hphase
      · next hlooking hparking hbridging _ =>
        cases hstep
        exact .endDialog hop hdialog.1 ⟨hlooking, hparking, hbridging⟩
    · contradiction

/-! ## what the parts change -/

namespace State

variable (s : State)

theorem of_idle {s : State} {c : Nat} {k : Conn} (h : s.idle c = some k) :
    s.conns[c]? = some k ∧ k.closed = false ∧ k.task = none := by
  unfold idle at h
  obtain ⟨k', hk, h⟩ := bind_eq_some_iff.mp h
  split at h
  · next hidle =>
    cases h
    exact ⟨hk, hidle⟩
  · contradiction

@[simp] theorem setOp_frame (i : Nat) (f : Op → Op) :
    (s.setOp i f).conns = s.conns ∧ (s.setOp i f).sessions = s.sessions ∧ (s.setOp i f).ops = s.ops.modify i f ∧
      (s.setOp i f).bridges = s.bridges ∧ (s.setOp i f).pending = s.pending ∧ (s.setOp i f).active = s.active ∧
      (s.setOp i f).iceAgents = s.iceAgents ∧ (s.setOp i f).iceKeepalives = s.iceKeepalives ∧
      (s.setOp i f).suffix = s.suffix :=
  ⟨rfl, rfl, rfl, rfl, rfl, rfl, rfl, rfl, rfl⟩

@[simp] theorem setConn_frame (c : Nat) (f : Conn → Conn) :
    (s.setConn c f).conns = s.conns.modify c f ∧ (s.setConn c f).sessions = s.sessions ∧ (s.setConn c f).ops = s.ops ∧
      (s.setConn c f).bridges = s.bridges ∧ (s.setConn c f).pending = s.pending ∧ (s.setConn c f).active = s.active ∧
      (s.setConn c f).iceAgents = s.iceAgents ∧ (s.setConn c f).iceKeepalives = s.iceKeepalives ∧
      (s.setConn c f).suffix = s.suffix :=
  ⟨rfl, rfl, rfl, rfl, rfl, rfl, rfl, rfl, rfl⟩

@[simp] theorem reply_frame (i : Nat) (r : Reply) :
    (s.reply i r).sessions = s.sessions ∧ (s.reply i r).ops = s.ops ∧ (s.reply i r).bridges = s.bridges ∧
      (s.reply i r).pending = s.pending ∧ (s.reply i r).active = s.active ∧ (s.reply i r).iceAgents = s.iceAgents ∧
      (s.reply i r).iceKeepalives = s.iceKeepalives ∧ (s.reply i r).suffix = s.suffix := by
  unfold reply
  split <;> simp

@[simp] theorem reject_frame (i : Nat) : (s.reject i).sessions = s.sessions ∧
      (s.reject i).ops = s.ops.modify i (fun op => { op with phase := .failed, endpoint := false }) ∧
      (s.reject i).bridges = s.bridges ∧ (s.reject i).pending = s.pending ∧ (s.reject i).active = s.active ∧
      (s.reject i).iceAgents = s.iceAgents ∧ (s.reject i).iceKeepalives = s.iceKeepalives ∧
      (s.reject i).suffix = s.suffix := by
  simp [reject]

@[simp] theorem cancelKeepalive_frame (session : SessionId) :
    (s.cancelKeepalive session).conns = s.conns ∧ (s.cancelKeepalive session).sessions = s.sessions ∧
      (s.cancelKeepalive session).bridges = s.bridges ∧ (s.cancelKeepalive session).pending = s.pending ∧
      (s.cancelKeepalive session).active = s.active ∧ (s.cancelKeepalive session).iceAgents = s.iceAgents ∧
      (s.cancelKeepalive session).iceKeepalives = s.iceKeepalives.erase session ∧
      (s.cancelKeepalive session).suffix = s.suffix := by
  unfold cancelKeepalive
  split
  · simp
  · next hnone => simp [Table.erase, ← hnone]

@[simp] theorem removeAgent_frame (session : SessionId) (fate : Nat → AgentFate) :
    (s.removeAgent session fate).conns = s.conns ∧ (s.removeAgent session fate).sessions = s.sessions ∧
      (s.removeAgent session fate).bridges = s.bridges ∧ (s.removeAgent session fate).pending = s.pending ∧
      (s.removeAgent session fate).active = s.active ∧
      (s.removeAgent session fate).iceAgents = s.iceAgents.erase session ∧
      (s.removeAgent session fate).iceKeepalives = s.iceKeepalives ∧ (s.removeAgent session fate).suffix = s.suffix := by
  unfold removeAgent
  split
  · simp
  · next hnone => simp [Table.erase, ← hnone]

@[simp] theorem releaseBridge_frame (session : SessionId) :
    (s.releaseBridge session).conns = s.conns ∧ (s.releaseBridge session).sessions = s.sessions ∧
      (s.releaseBridge session).ops = s.ops ∧ (s.releaseBridge session).pending = s.pending ∧
      (s.releaseBridge session).active = s.active.erase session ∧ (s.releaseBridge session).iceAgents = s.iceAgents ∧
      (s.releaseBridge session).iceKeepalives = s.iceKeepalives ∧ (s.releaseBridge session).suffix = s.suffix := by
  unfold releaseBridge
  split
  · simp
  · next hnone => simp [Table.erase, ← hnone]

@[simp] theorem overwrite_frame (i : Nat) (tag : String) :
    (s.overwrite i tag).conns = s.conns ∧ (s.overwrite i tag).sessions = s.sessions ∧
      (s.overwrite i tag).bridges = s.bridges ∧ (s.overwrite i tag).pending = s.pending.insert tag i ∧
      (s.overwrite i tag).active = s.active ∧ (s.overwrite i tag).iceAgents = s.iceAgents ∧
      (s.overwrite i tag).iceKeepalives = s.iceKeepalives ∧ (s.overwrite i tag).suffix = s.suffix := by
  unfold overwrite
  split <;> simp

@[simp] theorem enter_frame (session : Option SessionId) (b : Nat) :
    (s.enter session b).conns = s.conns ∧ (s.enter session b).sessions = s.sessions ∧ (s.enter session b).ops = s.ops ∧
      (s.enter session b).bridges = s.bridges ∧ (s.enter session b).pending = s.pending ∧
      (s.enter session b).iceAgents = s.iceAgents ∧ (s.enter session b).iceKeepalives = s.iceKeepalives ∧
      (s.enter session b).suffix = s.suffix := by
  unfold enter
  split <;> simp

theorem active_enter_of_ne {session : Option SessionId} {session' : SessionId} (b : Nat) (h : session ≠ some session') :
    (s.enter session b).active session' = s.active session' := by
  unfold enter
  split
  · next x =>
    show s.active.insert x b session' = s.active session'
    have hne : session' ≠ x := fun heq => h (congrArg some heq.symm)
    rw [Table.insert_apply, if_neg hne]
  · rfl

@[simp] theorem install_frame (i j : Nat) :
    (s.install i j).conns = s.conns ∧ (s.install i j).sessions = s.sessions ∧ (s.install i j).ops = s.ops ∧
      (s.install i j).bridges = s.bridges ++ [{ first := i, second := j }] ∧ (s.install i j).pending = s.pending ∧
      (s.install i j).active = s.active ∧ (s.install i j).iceAgents = s.iceAgents ∧
      (s.install i j).iceKeepalives = s.iceKeepalives ∧ (s.install i j).suffix = s.suffix :=
  ⟨rfl, rfl, rfl, rfl, rfl, rfl, rfl, rfl, rfl⟩

@[simp] theorem registerAgent_frame (i : Nat) (session : SessionId) (remotes : List String) :
    (s.registerAgent i session remotes).conns = s.conns ∧ (s.registerAgent i session remotes).sessions = s.sessions ∧
      (s.registerAgent i session remotes).bridges = s.bridges ∧ (s.registerAgent i session remotes).pending = s.pending ∧
      (s.registerAgent i session remotes).active = s.active ∧
      (s.registerAgent i session remotes).iceAgents = s.iceAgents.insert session i ∧
      (s.registerAgent i session remotes).iceKeepalives = s.iceKeepalives ∧
      (s.registerAgent i session remotes).suffix = s.suffix := by
  unfold registerAgent
  split <;> simp

end State

end SmithsNet.Webrtc
