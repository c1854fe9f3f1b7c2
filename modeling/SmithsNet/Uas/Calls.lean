import SmithsNet.Lib.Scripts
import SmithsNet.Uas.Attach

/-!
# SmithsNet.Uas.Calls

The dialog table of the UAS and the tables beside it (`smiths-sip/src/uas.rs`):
session timers, duration guards, the media of each leg, bridges, 2xx retransmit
loops, sessions, and the legs that wait for a partner.

A request or a timer event is handled by the worker of its `Call-ID`, one at a
time; handlers of different `Call-ID`s run side by side, and tearing a dialog
down also tears down the one it is bridged to, on the worker of the first.  A
handler is a script of `Op`s, each of them one access to one table; between any
two of them every other handler, timer and retransmit loop may move.  What the
media fabric and the peers answer is decided by the action.

The fields that end with "so far" are a record of the run that no step reads.
-/

namespace SmithsNet.Uas.Calls

open Lib SmithsNet.Core Attach

/-! ## what the tables hold -/

/-- What call handling reads of a dialog's record. -/
structure Dialog where
  state : DialogState
  rendezvous : Option String
  deriving DecidableEq

/-- Media of one leg. -/
structure LegMedia where
  endpoint : UInt64
  remote : Option SocketAddr
  rtcpPeer : Option SocketAddr := none
  srtp : Option SrtpKeys := none
  clockRate : UInt32 := defaultRtpClockRate
  deriving DecidableEq

/-- The leg as the media fabric wants it; none while the peer has not said
where it receives RTP. -/
def LegMedia.bridgeLeg (m : LegMedia) : Option BridgeLeg :=
  m.remote.map fun peer =>
    { endpoint := m.endpoint
      peer := peer
      srtp := m.srtp
      clockRate := m.clockRate
      rtcpPeer := m.rtcpPeer }

/-- An entry of `session_timers`; `arming` says which arming the token is of. -/
structure SessionTimer where
  generation : UInt64
  arming : Nat

/-- The task of one arming of a session timer. -/
structure Arming where
  key : DialogKey
  generation : UInt64
  /-- It sleeps, and its token is not cancelled. -/
  live : Bool

/-- The task of a duration guard. -/
structure Guard where
  key : DialogKey
  live : Bool

/-- Where a 2xx retransmit loop stands. -/
inductive LoopPhase
  /-- In the loop. -/
  | running
  /-- Out of it, by its budget or by a failed send. -/
  | leaving (timedOut : Bool)
  /-- Its token was not cancelled: it will clear its slot. -/
  | releasing (timedOut : Bool)
  /-- It will ask for the call to be ended. -/
  | notifying
  | done
  deriving DecidableEq

structure Loop where
  key : DialogKey
  cancelled : Bool
  phase : LoopPhase
  deriving DecidableEq

inductive InternalEvent
  | ackTimeout (key : DialogKey)
  /-- `arming` says which arming produced it. -/
  | sessionExpired (key : DialogKey) (generation : UInt64) (arming : Nat)
  | maxDurationReached (key : DialogKey)
  deriving DecidableEq

/-- The `Call-ID` whose worker handles the event. -/
def InternalEvent.callId : InternalEvent → String
  | ackTimeout key | sessionExpired key _ _ | maxDurationReached key => key.1

/-! ## requests -/

/-- How the media of a new dialog gets connected: which of the paths of
`attach_media` is open, and what the other side answered. -/
inductive Route
  | webrtcBridged
  | webrtcParked
  | conference
  | rendezvous
  deriving DecidableEq

/-- An INVITE that is admitted, with the key its dialog gets. -/
structure Invite where
  key : DialogKey
  /-- User part of the request URI. -/
  room : Option String
  media : Option LegMedia
  codec : Option NegotiatedCodec
  route : Route
  /-- A session timer is agreed on. -/
  timer : Bool
  deriving DecidableEq

/-- A re-INVITE or an UPDATE that is accepted. -/
structure Refresh where
  /-- It is a re-INVITE, and its 2xx is retransmitted. -/
  invite : Bool
  /-- The media it offers. -/
  media : Option LegMedia
  timer : Bool
  deriving DecidableEq

/-! ## operations -/

/-- One access to one table. -/
inductive Op
  -- `attach_media`
  | bridgeWebrtc (i : Invite)
  | joinConference (i : Invite)
  /-- The room's entry is taken under its lock: park the leg, or take the other. -/
  | rendezvousPair (i : Invite) (room : String) (leg : BridgeLeg)
  /-- The fabric bridges the legs, or a transcoder is set up. -/
  | connect (i : Invite) (room : String) (pending : PendingLeg)
  | repark (room : String) (pending : PendingLeg)
  /-- `bridges_by_dialog.insert`; `partner` is the other leg. -/
  | record (key : DialogKey) (bid : Nat) (partner : DialogKey)
  /-- `dialog_sessions.install`. -/
  | install (key : DialogKey) (leg session : Nat)
  -- `establish_dialog`
  | establish (i : Invite)
  | putMedia (key : DialogKey) (media : LegMedia)
  | spawn2xx (key : DialogKey)
  | readGeneration (key : DialogKey)
  | armSession (key : DialogKey) (generation : UInt64)
  | armGuard (key : DialogKey)
  -- `handle_reinvite`, `handle_update`, `handle_ack`
  | lookUp (key : DialogKey) (r : Refresh)
  | compareMedia (key : DialogKey) (media : LegMedia)
  | mediaMoved (key : DialogKey) (media : LegMedia)
  | findPartner (key : DialogKey) (media : LegMedia) (bid : Nat)
  | readPartner (key : DialogKey) (media : LegMedia) (partner : DialogKey)
  | rebuild (key partner : DialogKey)
  | unrecord (key : DialogKey)
  | confirm (key : DialogKey)
  -- `handle_internal`
  | checkAck (key : DialogKey)
  | checkExpired (key : DialogKey) (generation : UInt64) (arming : Nat)
  | checkDuration (key : DialogKey)
  -- `teardown_call`; `top` is the dialog the call is ended for, not its partner
  | remove (key : DialogKey) (bye top : Bool)
  | cancel2xx (key : DialogKey)
  | cancelSession (key : DialogKey)
  | cancelGuard (key : DialogKey)
  | dropMedia (key : DialogKey)
  | unpark (key : DialogKey) (room : String)
  | unbridge (key : DialogKey) (bye top : Bool)
  | findBridged (key : DialogKey) (bid : Nat) (bye top : Bool)
  | retainBridges (bid : Nat)
  /-- `dialog_sessions.remove_dialog`; a teardown stops what it gets. -/
  | dropSessions (key : DialogKey) (stops : Bool)
  | sendBye (key : DialogKey)
  deriving DecidableEq

abbrev Handler := Script String Op

structure State where
  /-- `max_call_duration` is set. -/
  guarded : Bool
  dialogs : KeyMap DialogKey Dialog
  sessionTimers : KeyMap DialogKey SessionTimer
  durationGuards : KeyMap DialogKey Nat
  legMedia : KeyMap DialogKey LegMedia
  bridges : KeyMap DialogKey Nat
  retransmits : KeyMap DialogKey Nat
  /-- By dialog and leg. -/
  sessions : KeyMap (DialogKey × Nat) Nat
  pending : KeyMap String PendingLeg
  armings : List Arming
  guards : List Guard
  loops : List Loop
  /-- Internal events that no worker has taken up yet. -/
  queue : List InternalEvent
  handlers : List Handler
  nextBridge : Nat
  nextSession : Nat
  /-- Dialog keys so far: every new one has a new local tag. -/
  issued : List DialogKey
  /-- Legs parked so far, by room. -/
  waited : List (String × DialogKey)
  /-- Pairings so far: the leg that waited, and the one that came. -/
  pairs : List (DialogKey × DialogKey)
  /-- Dialogs removed so far, in order. -/
  torn : List DialogKey
  /-- BYEs sent so far. -/
  byes : List DialogKey
  /-- Calls ended for an expired session so far: the arming of the event, and
  the arming the table held. -/
  expired : List (Nat × Nat)
  /-- Sessions filed so far. -/
  installed : List Nat
  /-- Sessions stopped so far. -/
  stopped : List Nat

/-- `restore_dialogs`, before anything runs. -/
def State.restore (guarded : Bool) (records : List DialogRecord) : State where
  guarded := guarded
  dialogs := records.foldl (fun t r => t.insert r.key ⟨r.state, r.rendezvous⟩) ∅
  sessionTimers := ∅
  durationGuards := ∅
  legMedia := ∅
  bridges := ∅
  retransmits := ∅
  sessions := ∅
  pending := ∅
  armings := []
  guards := []
  loops := []
  queue := []
  handlers := []
  nextBridge := 0
  nextSession := 0
  issued := records.map DialogRecord.key
  waited := []
  pairs := []
  torn := []
  byes := []
  expired := []
  installed := []
  stopped := []

/-! ## the scripts -/

/-- `attach_media` and what follows it. -/
def Invite.ops (i : Invite) : List Op :=
  match i.media.bind LegMedia.bridgeLeg with
  | none => [.establish i]
  | some leg =>
    match i.route, i.room with
    | .webrtcBridged, _ => [.bridgeWebrtc i]
    | .webrtcParked, _ => [.establish i]
    | _, none => [.establish i]
    | .conference, some _ => [.joinConference i]
    | .rendezvous, some room => [.rendezvousPair i room leg]

/-- `establish_dialog` after the record is in the table. -/
def Invite.establishOps (i : Invite) : List Op :=
  (i.media.map (.putMedia i.key)).toList ++ [.spawn2xx i.key] ++
    (if i.timer then [.readGeneration i.key] else []) ++ [.armGuard i.key]

/-- `handle_reinvite` and `handle_update` once the dialog is found. -/
def Refresh.ops (r : Refresh) (key : DialogKey) : List Op :=
  (r.media.map (.compareMedia key)).toList ++ (if r.invite then [.spawn2xx key] else []) ++
    (if r.timer then [.readGeneration key] else [.cancelSession key])

/-- `teardown_dialog` once the record is out of the table. -/
def teardownOps (key : DialogKey) (dialog : Dialog) (bye top : Bool) : List Op :=
  [.cancel2xx key, .cancelSession key, .cancelGuard key, .dropMedia key] ++
    (dialog.rendezvous.map (.unpark key)).toList ++ [.unbridge key bye top]

/-- The rest of it once the bridge is gone, and the partner's teardown. -/
def finishOps (key : DialogKey) (bye top : Bool) (partner : Option DialogKey) : List Op :=
  [.dropSessions key true] ++ (if bye then [.sendBye key] else []) ++
    (if top then (partner.map fun p => .remove p true false).toList else [])

def InternalEvent.ops : InternalEvent → List Op
  | ackTimeout key => [.checkAck key]
  | sessionExpired key generation arming => [.checkExpired key generation arming]
  | maxDurationReached key => [.checkDuration key]

/-! ## what the scripts hold -/

theorem Invite.ops_eq (i : Invite) : ∃ o, i.ops = [o] ∧
    (o = .establish i ∨ o = .bridgeWebrtc i ∨ o = .joinConference i ∨
      ∃ room leg, i.room = some room ∧ o = .rendezvousPair i room leg) := by
  unfold Invite.ops
  split
  · exact ⟨_, rfl, by simp⟩
  · split
    · exact ⟨_, rfl, by simp⟩
    · exact ⟨_, rfl, by simp⟩
    · exact ⟨_, rfl, by simp⟩
    · exact ⟨_, rfl, by simp⟩
    · exact ⟨_, rfl, by simp_all⟩

@[simp] theorem Invite.mem_establishOps {i : Invite} {o : Op} : o ∈ i.establishOps ↔
    (∃ m, i.media = some m ∧ .putMedia i.key m = o) ∨ o = .spawn2xx i.key ∨
      (i.timer = true ∧ o = .readGeneration i.key) ∨ o = .armGuard i.key := by
  simp only [establishOps, List.mem_append, Option.mem_toList, Option.map_eq_some_iff,
    List.mem_singleton, List.mem_ite_nil_right, or_assoc]

@[simp] theorem Refresh.mem_ops {r : Refresh} {key : DialogKey} {o : Op} : o ∈ r.ops key ↔
    (∃ m, r.media = some m ∧ .compareMedia key m = o) ∨ (r.invite = true ∧ o = .spawn2xx key) ∨
      (r.timer = true ∧ o = .readGeneration key) ∨ (r.timer = false ∧ o = .cancelSession key) := by
  cases ht : r.timer <;> simp [ops, ht, Option.map_eq_some_iff]

@[simp] theorem mem_teardownOps {key : DialogKey} {d : Dialog} {bye top : Bool} {o : Op} :
    o ∈ teardownOps key d bye top ↔
      o = .cancel2xx key ∨ o = .cancelSession key ∨ o = .cancelGuard key ∨ o = .dropMedia key ∨
        (∃ room, d.rendezvous = some room ∧ .unpark key room = o) ∨ o = .unbridge key bye top := by
  simp [teardownOps, Option.map_eq_some_iff]

@[simp] theorem mem_finishOps {key : DialogKey} {bye top : Bool} {partner : Option DialogKey} {o : Op} :
    o ∈ finishOps key bye top partner ↔
      o = .dropSessions key true ∨ (bye = true ∧ o = .sendBye key) ∨
        (top = true ∧ ∃ p, partner = some p ∧ .remove p true false = o) := by
  simp [finishOps, Option.map_eq_some_iff]

@[simp] theorem InternalEvent.mem_ops {e : InternalEvent} {o : Op} : o ∈ e.ops ↔
    (∃ key, e = .ackTimeout key ∧ o = .checkAck key) ∨
      (∃ key generation arming, e = .sessionExpired key generation arming ∧
        o = .checkExpired key generation arming) ∨
      ∃ key, e = .maxDurationReached key ∧ o = .checkDuration key := by
  cases e <;> simp [ops]

/-! ## the steps -/

namespace State

/-- Cancel the token of an arming, if there is one. -/
def cancelArming (armings : List Arming) (n : Option Nat) : List Arming :=
  n.elim armings fun n => armings.modify n fun a => { a with live := false }

def cancelGuard (guards : List Guard) (n : Option Nat) : List Guard :=
  n.elim guards fun n => guards.modify n fun g => { g with live := false }

def cancelLoop (loops : List Loop) (n : Option Nat) : List Loop :=
  n.elim loops fun n => loops.modify n fun l => { l with cancelled := true }

/-- The sessions filed under a dialog. -/
def sessionsOf (s : State) (key : DialogKey) : List Nat :=
  (s.sessions.entries.filter fun e => e.1.1 = key).map Sigma.snd

/-- One operation: the state after it, and the operations that take its place.
`ok` is the answer of the media fabric, where it is asked. -/
def perform (s : State) (ok : Bool) : Op → State × List Op
  | .bridgeWebrtc i =>
    ({ s with bridges := s.bridges.insert i.key s.nextBridge, nextBridge := s.nextBridge + 1 },
      [.establish i])
  | .joinConference i =>
    ({ s with
      sessions := s.sessions.insert (i.key, 0) s.nextSession
      nextSession := s.nextSession + 1
      installed := s.installed ++ [s.nextSession] }, [.establish i])
  | .rendezvousPair i room leg =>
    match s.pending.lookup room with
    | some p => ({ s with pending := s.pending.erase room }, [.connect i room p])
    | none =>
      ({ s with
        pending := s.pending.insert room ⟨i.key, leg, i.codec⟩
        waited := s.waited ++ [(room, i.key)] }, [.establish i])
  | .connect i room p =>
    if ok then
      match mismatch p.audioCodec i.codec with
      | none =>
        ({ s with nextBridge := s.nextBridge + 1, pairs := s.pairs ++ [(p.dialogKey, i.key)] },
          [.record p.dialogKey s.nextBridge i.key, .record i.key s.nextBridge p.dialogKey,
            .establish i])
      | some _ =>
        ({ s with nextSession := s.nextSession + 1, pairs := s.pairs ++ [(p.dialogKey, i.key)] },
          [.install p.dialogKey 0 s.nextSession, .install i.key 1 s.nextSession, .establish i])
    else (s, [.repark room p])
  | .repark room p => ({ s with pending := s.pending.insert room p }, [])
  | .record key bid _ => ({ s with bridges := s.bridges.insert key bid }, [])
  | .install key leg session =>
    ({ s with
      sessions := s.sessions.insert (key, leg) session
      installed := s.installed ++ [session] }, [])
  | .establish i =>
    ({ s with dialogs := s.dialogs.insert i.key ⟨.early, i.room⟩ }, i.establishOps)
  | .putMedia key media => ({ s with legMedia := s.legMedia.insert key media }, [])
  | .spawn2xx key =>
    ({ s with
      retransmits := s.retransmits.insert key s.loops.length
      loops := cancelLoop s.loops (s.retransmits.lookup key) ++ [⟨key, false, .running⟩] }, [])
  | .readGeneration key =>
    let generation := ((s.sessionTimers.lookup key).map SessionTimer.generation).getD 0
    (s, [.armSession key (generation + 1)])
  | .armSession key generation =>
    let old := (s.sessionTimers.lookup key).map SessionTimer.arming
    ({ s with
      sessionTimers := s.sessionTimers.insert key ⟨generation, s.armings.length⟩
      armings := cancelArming s.armings old ++ [⟨key, generation, true⟩] }, [])
  | .armGuard key =>
    if s.guarded then
      ({ s with
        durationGuards := s.durationGuards.insert key s.guards.length
        guards := cancelGuard s.guards (s.durationGuards.lookup key) ++ [⟨key, true⟩] }, [])
    else (s, [])
  | .lookUp key r => (s, if key ∈ s.dialogs then r.ops key else [])
  | .compareMedia key media =>
    (s, [.putMedia key media] ++
      if s.legMedia.lookup key = some media then [] else [.mediaMoved key media])
  | .mediaMoved key media =>
    match s.bridges.lookup key with
    | some bid => (s, [.findPartner key media bid])
    | none => (s, [.dropSessions key false])
  | .findPartner key media bid =>
    match s.bridges.entries.find? fun e => e.2 = bid ∧ e.1 ≠ key with
    | some e => (s, [.readPartner key media e.1])
    | none => (s, [])
  | .readPartner key media partner =>
    match media.bridgeLeg, (s.legMedia.lookup partner).bind LegMedia.bridgeLeg with
    | some _, some _ => (s, [.rebuild key partner])
    | _, _ => (s, [])
  | .rebuild key partner =>
    if ok then
      ({ s with nextBridge := s.nextBridge + 1 },
        [.record key s.nextBridge partner, .record partner s.nextBridge key])
    else (s, [.unrecord key, .unrecord partner])
  | .unrecord key => ({ s with bridges := s.bridges.erase key }, [])
  | .confirm key =>
    match s.dialogs.lookup key with
    | some d =>
      ({ s with dialogs := s.dialogs.insert key { d with state := .confirmed } },
        [.cancel2xx key])
    | none => (s, [.cancel2xx key])
  | .checkAck key =>
    match s.dialogs.lookup key with
    | some d => (s, if d.state = .early then [.remove key true true] else [])
    | none => (s, [])
  | .checkExpired key generation arming =>
    match s.sessionTimers.lookup key with
    | some t =>
      if t.generation = generation then
        ({ s with expired := s.expired ++ [(arming, t.arming)] }, [.remove key true true])
      else (s, [])
    | none => (s, [])
  | .checkDuration key => (s, if key ∈ s.dialogs then [.remove key true true] else [])
  | .remove key bye top =>
    match s.dialogs.lookup key with
    | some d =>
      ({ s with dialogs := s.dialogs.erase key, torn := s.torn ++ [key] },
        teardownOps key d bye top)
    | none => (s, [])
  | .cancel2xx key =>
    ({ s with
      retransmits := s.retransmits.erase key
      loops := cancelLoop s.loops (s.retransmits.lookup key) }, [])
  | .cancelSession key =>
    let old := (s.sessionTimers.lookup key).map SessionTimer.arming
    ({ s with
      sessionTimers := s.sessionTimers.erase key
      armings := cancelArming s.armings old }, [])
  | .cancelGuard key =>
    ({ s with
      durationGuards := s.durationGuards.erase key
      guards := cancelGuard s.guards (s.durationGuards.lookup key) }, [])
  | .dropMedia key => ({ s with legMedia := s.legMedia.erase key }, [])
  | .unpark key room =>
    match s.pending.lookup room with
    | some p =>
      if p.dialogKey = key then ({ s with pending := s.pending.erase room }, []) else (s, [])
    | none => (s, [])
  | .unbridge key bye top =>
    match s.bridges.lookup key with
    | some bid => ({ s with bridges := s.bridges.erase key }, [.findBridged key bid bye top])
    | none => (s, finishOps key bye top none)
  | .findBridged key bid bye top =>
    let partner := (s.bridges.entries.find? fun e => e.2 = bid).map Sigma.fst
    (s, [.retainBridges bid] ++ finishOps key bye top partner)
  | .retainBridges bid =>
    ({ s with bridges := KeyMap.retain (fun _ other => decide (other ≠ bid)) s.bridges }, [])
  | .dropSessions key stops =>
    ({ s with
      sessions := KeyMap.retain (fun k _ => decide (k.1 ≠ key)) s.sessions
      stopped := s.stopped ++ if stops then s.sessionsOf key else [] }, [])
  | .sendBye key => ({ s with byes := s.byes ++ [key] }, [])

end State

inductive Action
  | invite (i : Invite)
  | refresh (key : DialogKey) (r : Refresh)
  | ack (key : DialogKey)
  | bye (key : DialogKey)
  /-- A worker takes up an internal event. -/
  | internal (n : Nat)
  /-- A handler carries out its next operation. -/
  | run (h : Nat) (ok : Bool)
  /-- A session timer runs out. -/
  | expire (n : Nat)
  /-- A duration guard runs out. -/
  | strike (n : Nat)
  /-- A retransmit loop sends its 2xx once more, or fails to. -/
  | retransmit (n : Nat) (sent : Bool)
  /-- A retransmit loop has used up its budget. -/
  | giveUp (n : Nat)
  /-- A retransmit loop sees its token cancelled. -/
  | quit (n : Nat)
  /-- A loop that is out asks whether its token is cancelled. -/
  | settle (n : Nat)
  /-- It clears its slot. -/
  | release (n : Nat)
  /-- It sends its event. -/
  | notify (n : Nat)

namespace State

@[simps] def withHandlers (s : State) (handlers : List Handler) : State := { s with handlers }

/-- A handler starts, when the worker of its `Call-ID` is free. -/
def start (s : State) (callId : String) (ops : List Op) : Option State :=
  if Script.Free s.handlers callId then some (s.withHandlers (s.handlers ++ [⟨callId, ops⟩]))
  else none

def setLoop (s : State) (n : Nat) (l : Loop) (phase : LoopPhase) : State :=
  { s with loops := s.loops.set n { l with phase } }

def step (s : State) : Action → Option State
  | .invite i =>
    if i.key ∈ s.issued then none
    else ({ s with issued := i.key :: s.issued } : State).start i.key.1 i.ops
  | .refresh key r => s.start key.1 [.lookUp key r]
  | .ack key => s.start key.1 [.confirm key]
  | .bye key => s.start key.1 [.remove key false true]
  | .internal n =>
    match s.queue[n]? with
    | some e => ({ s with queue := s.queue.eraseIdx n } : State).start e.callId e.ops
    | none => none
  | .run h ok =>
    match s.handlers[h]? with
    | some ⟨c, op :: rest⟩ =>
      let (s', ops) := s.perform ok op
      some (s'.withHandlers (s.handlers.set h ⟨c, ops ++ rest⟩))
    | _ => none
  | .expire n =>
    match s.armings[n]? with
    | some ⟨key, generation, true⟩ =>
      some { s with
        armings := s.armings.set n ⟨key, generation, false⟩
        queue := s.queue ++ [.sessionExpired key generation n] }
    | _ => none
  | .strike n =>
    match s.guards[n]? with
    | some ⟨key, true⟩ =>
      some { s with
        guards := s.guards.set n ⟨key, false⟩
        queue := s.queue ++ [.maxDurationReached key] }
    | _ => none
  | .retransmit n sent =>
    match s.loops[n]? with
    | some ⟨key, false, .running⟩ =>
      some (if sent then s else s.setLoop n ⟨key, false, .running⟩ (.leaving false))
    | _ => none
  | .giveUp n =>
    match s.loops[n]? with
    | some ⟨key, false, .running⟩ => some (s.setLoop n ⟨key, false, .running⟩ (.leaving true))
    | _ => none
  | .quit n =>
    match s.loops[n]? with
    | some ⟨key, true, .running⟩ => some (s.setLoop n ⟨key, true, .running⟩ .done)
    | _ => none
  | .settle n =>
    match s.loops[n]? with
    | some ⟨key, cancelled, .leaving timedOut⟩ =>
      some (s.setLoop n ⟨key, cancelled, .leaving timedOut⟩
        (if cancelled then .done else .releasing timedOut))
    | _ => none
  | .release n =>
    match s.loops[n]? with
    | some ⟨key, cancelled, .releasing timedOut⟩ =>
      some { s.setLoop n ⟨key, cancelled, .releasing timedOut⟩
          (if timedOut then .notifying else .done) with
        retransmits := s.retransmits.erase key }
    | _ => none
  | .notify n =>
    match s.loops[n]? with
    | some ⟨key, cancelled, .notifying⟩ =>
      some { s.setLoop n ⟨key, cancelled, .notifying⟩ .done with
        queue := s.queue ++ [.ackTimeout key] }
    | _ => none

/-- The operation an action carries out, and the answer of the media fabric. -/
def opOf (s : State) : Action → Option (Op × Bool)
  | .run h ok => ((s.handlers[h]?).bind fun handler => handler.ops.head?).map (·, ok)
  | _ => none

/-! ## what the steps are -/

/-- The state after a handler has carried out its next operation. -/
abbrev ran (s : State) (ok : Bool) (n : Nat) (c : String) (op : Op) (rest : List Op) : State :=
  (s.perform ok op).1.withHandlers (s.handlers.set n ⟨c, (s.perform ok op).2 ++ rest⟩)

theorem start_eq_some {s s' : State} {callId : String} {ops : List Op}
    (h : s.start callId ops = some s') :
    Script.Free s.handlers callId ∧ s' = s.withHandlers (s.handlers ++ [⟨callId, ops⟩]) := by
  unfold start at h
  split at h
  · next hfree => exact ⟨hfree, (Option.some.inj h).symm⟩
  · contradiction

theorem step_run {s s' : State} {n : Nat} {ok : Bool} (h : s.step (.run n ok) = some s') :
    ∃ c op rest, s.handlers[n]? = some ⟨c, op :: rest⟩ ∧ s.opOf (.run n ok) = some (op, ok) ∧
      s' = s.ran ok n c op rest := by
  simp only [step] at h
  split at h
  · next c op rest hn =>
    refine ⟨c, op, rest, hn, ?_, (Option.some.inj h).symm⟩
    simp [opOf, hn]
  · contradiction

end State

/-- A handler runs on, the media fabric agreeing. -/
def Action.runs (h n : Nat) : List Action := List.replicate n (.run h true)

end SmithsNet.Uas.Calls
