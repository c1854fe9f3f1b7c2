import Mathlib
import SmithsNet.Core.Dialog
import SmithsNet.Lib.Utf8
import SmithsNet.Txn.ClientSends
import SmithsNet.Uac.Invite

/-!
# SmithsNet.Uac.PlaceCall

Placing a call (`smiths-sip/src/uac.rs`, `place_call`): an endpoint is allocated for the
media, an INVITE is started on the client's transaction driver, and its events are read
until one settles the call.  The driver goes on beside it, with every other transaction of
the client, and so does the task that listens for responses; it answers a 2xx that comes
again after the transaction has closed with the ACK that was registered.

`place_call_fails_clean`: a call that fails leaves nothing behind, as long as the final
response that is taken is no 200 without a tag and no 2xx comes in for a call that is given
up.  `untagged_ok_leaks`: a 200 without a tag ends the call with its endpoint allocated.
-/

namespace SmithsNet.Uac

open Lib Txn SmithsNet.Core

/-! ## reading the target and the responses -/

/-- `UacError`, as far as placing a call returns it. -/
inductive UacError
  | invalidTarget (message : Text)
  | rejected (status : Nat) (reason : Text)
  | timeout (millis : Nat)
  | internal (message : Text)
  deriving DecidableEq

/-- `parse_target`: the URI to send to, and its host and port. -/
def parseTarget (target : Text) : Except UacError (Text × Text) :=
  let raw := trim target
  let inner := ((stripLead ['<'] raw).bind fun s => if s.getLast? = some '>' then some s.dropLast else none).getD raw
  match stripLead "sip:".toList inner with
  | none => .error (.invalidTarget ("expected sip: scheme, got `".toList ++ inner ++ "`".toList))
  | some body =>
    let hostPort := ((splitOnce ['@'] body.reverse).map fun cut => cut.1.reverse).getD body
    .ok (inner, if ':' ∈ hostPort then hostPort else hostPort ++ ":5060".toList)

/-- The first of a text's `lines`. -/
def firstLine (text : Text) : Text :=
  match splitOnce ['\n'] text with
  | some (line, _) => if line.getLast? = some '\r' then line.dropLast else line
  | none => text

/-- `parse_reason`: what stands behind the second space of the status line. -/
def parseReason (bytes : Bytes) : Text :=
  (do
    let (_, rest) ← splitOnce [' '] (firstLine ((fromUtf8 bytes).getD []))
    let (_, reason) ← splitOnce [' '] rest
    pure reason).getD []

/-- `extract_to_tag` on one line. -/
def toTag (line : Text) : Option Text :=
  if startsWithAny ["to:", "t:"] line then
    (findSub ";tag=".toList (toAsciiLowercase line)).map fun i =>
      (line.drop (i + 5)).takeWhile fun c => !(c == ';' || isWhitespace c)
  else none

/-- `extract_to_tag`: of the first line that has one. -/
def extractToTag (bytes : Bytes) : Option Text :=
  (fromUtf8 bytes).bind fun text => (splitSub crlf text).findSome? toTag

/-- `extract_body` -/
def extractBody (bytes : Bytes) : Text :=
  ((splitOnce "\r\n\r\n".toList ((fromUtf8 bytes).getD [])).map Prod.snd).getD []

/-- `parse_status`, of the driver. -/
def parseStatus (bytes : Bytes) : Option Nat := do
  let (line, _) ← splitOnceBy (· == 13) bytes
  let text ← fromUtf8 line
  let code ← (splitWhitespace text)[1]?
  parseUnsigned 16 code

/-- `cseq_method`, of the driver. -/
def cseqMethod (bytes : Bytes) : Option Text :=
  (headerValue bytes ["cseq"]).bind fun value => (splitWhitespace value)[1]?

/-- `build_ack_2xx`: the ACK of the whole way, on a branch of its own. -/
def buildAck2xx (f : InviteFields) (branch toTag : Text) : Bytes :=
  toUtf8 (((["ACK".toList ++ ' ' :: (f.requestUri ++ ' ' :: "SIP/2.0".toList), { f with branch }.viaLine, f.fromLine,
    header "To" (f.toUri ++ ";tag=".toList ++ toTag), f.callIdLine,
    header "CSeq" (showNat f.cseq.toNat ++ ' ' :: "ACK".toList), header "Max-Forwards" "70".toList,
    header "Content-Length" "0".toList].map (· ++ crlf)).flatten) ++ crlf)

/-! ## the client -/

/-- What a client is made with.  `parseAddr` is the address parser of the standard library,
`parseRemoteRtp` the negotiator's reading of an answer. -/
structure Client where
  /-- As it is displayed. -/
  localSipAddr : Text
  viaTransport : Text
  deadlineMillis : Nat
  parseAddr : Text → Option SocketAddr
  parseRemoteRtp : Text → Option SocketAddr

def Client.contact (u : Client) : Text := "<sip:smiths@".toList ++ u.localSipAddr ++ ">".toList

/-- `UacDialog` -/
structure UacDialog where
  localTag : Text
  remoteTag : Text
  targetUri : Text
  peer : SocketAddr
  localSipAddr : Text
  nextCseq : UInt32
  endpointId : Nat
  deriving DecidableEq

/-- The identifiers drawn for a call. -/
structure Fresh where
  callId : Text
  localTag : Text
  branch : Text
  ackBranch : Text

/-- A call whose INVITE is started. -/
structure Attempt where
  invite : InviteFields
  peer : SocketAddr
  endpoint : Nat
  ackBranch : Text
  /-- Its entry in the driver. -/
  entry : Nat

def Attempt.key (c : Attempt) : TransactionKey := ⟨String.ofList c.invite.branch, "INVITE", .client⟩

/-- Where `place_call` is. -/
inductive Phase
  | idle
  /-- It drains the events of the transaction. -/
  | waiting
  /-- It releases the endpoint, and then fails. -/
  | releasing (e : UacError)
  /-- The ACK is registered. -/
  | acking (remoteTag : Text) (remoteRtp : Option SocketAddr)
  | failed (e : UacError)
  | placed (callId : Text)
  deriving DecidableEq

/-- The task that listens for responses on the branch. -/
inductive Listener
  | live
  /-- It answers a 2xx that comes again. -/
  | absorbing
  | gone
  deriving DecidableEq

structure State where
  driver : Driver
  /-- What the media fabric has allocated. -/
  endpoints : Finset Nat
  dialogs : KeyMap Text UacDialog
  phase : Phase
  call : Option Attempt
  listener : Listener
  /-- How many events of the transaction have been read. -/
  tuRead : Nat
  /-- The entry of `acks_2xx` for the branch. -/
  ack2xx : Option Bytes
  /-- Everything that has come in on the branch. -/
  received : List Bytes
  /-- Everything handed to the transport beside the driver's send queue. -/
  sent : List Bytes
  published : List (Text × Nat × Option SocketAddr)

def State.new (reliable : Bool) (endpoints : Finset Nat) (dialogs : KeyMap Text UacDialog) : State where
  driver := .new reliable
  endpoints
  dialogs
  phase := .idle
  call := none
  listener := .gone
  tuRead := 0
  ack2xx := none
  received := []
  sent := []
  published := []

inductive Action
  /-- `place_call`, as far as the start of the transaction.  The fabric's answer, the
  negotiator's offer and the identifiers are given. -/
  | place (target : Text) (allocated : Except Text Nat) (sdpOffer : Text) (fresh : Fresh)
  /-- The next event of the transaction is read. -/
  | next
  /-- The channel of events is closed. -/
  | closed
  /-- The overall deadline expires. -/
  | deadline
  | release
  /-- The ACK is sent, and the dialog recorded. -/
  | ack
  /-- A response comes in on the branch. -/
  | response (bytes : Bytes)
  /-- The listener sees that the transaction has closed. -/
  | leaveLive
  /-- The listener's window closes. -/
  | closeWindow
  /-- The driver moves on: with this transaction or another. -/
  | drive (a : DriverAction)
  /-- Other calls allocate and release, record and remove. -/
  | others (endpoints : Finset Nat) (dialogs : KeyMap Text UacDialog)

/-! ## the steps -/

namespace State

/-- The event to be read next. -/
def unread (s : State) (c : Attempt) : Option TuEvent := (s.driver.entries[c.entry]?).bind fun e => e.tu[s.tuRead]?

/-- `place_call`, as far as `start_client`. -/
def place (u : Client) (s : State) (target : Text) (allocated : Except Text Nat) (sdpOffer : Text) (fresh : Fresh) :
    Option State :=
  match parseTarget target with
  | .error e => some { s with phase := .failed e }
  | .ok (targetUri, hostPort) =>
    match u.parseAddr hostPort, allocated with
    | none, _ =>
      some { s with phase := .failed (.invalidTarget (hostPort ++ ": invalid socket address syntax".toList)) }
    | some _, .error e => some { s with phase := .failed (.internal ("media allocate: ".toList ++ e)) }
    | some peer, .ok endpoint =>
      let invite : InviteFields := {
        requestUri := targetUri, viaTransport := u.viaTransport, viaSentBy := u.localSipAddr
        branch := fresh.branch, fromUri := u.contact, fromTag := fresh.localTag, toUri := targetUri
        callId := fresh.callId, cseq := 1, contact := u.contact, sdp := sdpOffer }
      -- what is allocated was free, and what is drawn is new
      if endpoint ∈ s.endpoints ∨ (s.dialogs.lookup fresh.callId).isSome then none
      else
        let txn := .invite (String.ofList fresh.branch) (buildInvite invite)
        (s.driver.step (.startClient txn)).map fun driver => { s with
          driver
          endpoints := insert endpoint s.endpoints
          phase := .waiting
          call := some ⟨invite, peer, endpoint, fresh.ackBranch, s.driver.entries.length⟩
          listener := .live }

/-- What an event of the transaction settles. -/
def read (u : Client) (s : State) (c : Attempt) : TuEvent → State
  | .response status bytes =>
    if 100 ≤ status ∧ status < 200 then s
    else if status ≠ 200 then { s with phase := .releasing (.rejected status (parseReason bytes)) }
    else
      match extractToTag bytes with
      | none => { s with phase := .failed (.internal "200 OK missing To-tag".toList) }
      | some tag =>
        { s with
          phase := .acking tag (u.parseRemoteRtp (extractBody bytes))
          ack2xx := some (buildAck2xx c.invite c.ackBranch tag) }
  | .terminated => { s with phase := .releasing (.timeout (2 ^ 64 - 1)) }

/-- The dialog the call is recorded as. -/
def dialog (u : Client) (c : Attempt) (remoteTag : Text) : UacDialog where
  localTag := c.invite.fromTag
  remoteTag
  targetUri := c.invite.requestUri
  peer := c.peer
  localSipAddr := u.localSipAddr
  nextCseq := c.invite.cseq + 1
  endpointId := c.endpoint

/-- The listener has a response. -/
def listen (s : State) (c : Attempt) (bytes : Bytes) : State :=
  match s.listener with
  | .live =>
    if (cseqMethod bytes).any (· != "INVITE".toList) then s
    else { s with driver := s.driver.deliver c.key (.responseReceived ((parseStatus bytes).getD 0) bytes) }
  | .absorbing =>
    if 200 ≤ (parseStatus bytes).getD 0 ∧ (parseStatus bytes).getD 0 < 300 then
      { s with sent := s.sent ++ s.ack2xx.toList }
    else s
  | .gone => s

/-- The step is not a response to the INVITE, which only the listener delivers. -/
def foreign (s : State) : DriverAction → Bool
  | .deliverResponse key _ _ => s.call.all fun c => key != c.key
  | _ => true

/-- Other calls have an endpoint and an identifier of their own, until the call is placed. -/
def Apart (s : State) (endpoints : Finset Nat) (dialogs : KeyMap Text UacDialog) : Prop :=
  ∀ c ∈ s.call, (c.endpoint ∈ endpoints ↔ c.endpoint ∈ s.endpoints) ∧
    dialogs.lookup c.invite.callId = s.dialogs.lookup c.invite.callId

instance (s : State) (endpoints : Finset Nat) (dialogs : KeyMap Text UacDialog) :
    Decidable (s.Apart endpoints dialogs) := inferInstanceAs (Decidable (∀ _ ∈ _, _))

end State

def Phase.isPlaced : Phase → Bool
  | placed _ => true
  | _ => false

def step (u : Client) (s : State) : Action → Option State
  | .place target allocated sdpOffer fresh =>
    if s.phase = .idle then s.place u target allocated sdpOffer fresh else none
  | .next =>
    match s.phase, s.call with
    | .waiting, some c => (s.unread c).map fun e => { s with tuRead := s.tuRead + 1 }.read u c e
    | _, _ => none
  | .closed =>
    match s.phase, s.call with
    | .waiting, some c =>
      if s.listener = .gone ∧ s.unread c = none then
        some { s with phase := .releasing (.timeout (2 ^ 64 - 1)) }
      else none
    | _, _ => none
  | .deadline =>
    match s.phase with
    | .waiting => some { s with phase := .releasing (.timeout (min u.deadlineMillis (2 ^ 64 - 1))) }
    | _ => none
  | .release =>
    match s.phase, s.call with
    | .releasing e, some c => some { s with endpoints := s.endpoints.erase c.endpoint, phase := .failed e }
    | _, _ => none
  | .ack =>
    match s.phase, s.call with
    | .acking remoteTag remoteRtp, some c =>
      some { s with
        sent := s.sent ++ s.ack2xx.toList
        dialogs := s.dialogs.insert c.invite.callId (State.dialog u c remoteTag)
        published := s.published ++ [(c.invite.callId, c.endpoint, remoteRtp)]
        phase := .placed c.invite.callId }
    | _, _ => none
  | .response bytes => s.call.map fun c => { s with received := s.received ++ [bytes] }.listen c bytes
  | .leaveLive =>
    match s.listener, s.call.bind fun c => s.driver.entries[c.entry]? with
    | .live, some e =>
      if e.cancelled then
        if e.got2xx then some { s with listener := .absorbing }
        else some { s with listener := .gone, ack2xx := none }
      else none
    | _, _ => none
  | .closeWindow =>
    match s.listener with
    | .absorbing => some { s with listener := .gone, ack2xx := none }
    | _ => none
  | .drive a => if s.foreign a then (s.driver.step a).map fun driver => { s with driver } else none
  | .others endpoints dialogs =>
    if s.phase.isPlaced ∨ s.Apart endpoints dialogs then some { s with endpoints, dialogs } else none

/-! ## what a call that fails leaves behind -/

/-- The message is a request of the method. -/
def IsRequest (method : String) (bytes : Bytes) : Prop := toUtf8 (method.toList ++ [' ']) <+: bytes

instance (method : String) (bytes : Bytes) : Decidable (IsRequest method bytes) :=
  inferInstanceAs (Decidable (_ <+: _))

/-- A 2xx to the INVITE. -/
def Is2xx (bytes : Bytes) : Prop :=
  200 ≤ (parseStatus bytes).getD 0 ∧ (parseStatus bytes).getD 0 < 300 ∧
    (cseqMethod bytes).all (· == "INVITE".toList) = true

instance (bytes : Bytes) : Decidable (Is2xx bytes) := inferInstanceAs (Decidable (_ ∧ _ ∧ _))

/-- Everything written to the peer for the call: by its transaction, and by the client. -/
def State.written (s : State) (c : Attempt) : List Bytes :=
  ((s.driver.entries[c.entry]?).map Entry.sent).getD [] ++ s.sent

/-- Its endpoint is released, it is not recorded, and a 2xx to it has been acknowledged and
answered with a BYE. -/
structure State.LeftClean (s : State) (c : Attempt) : Prop where
  released : c.endpoint ∉ s.endpoints
  unrecorded : s.dialogs.lookup c.invite.callId = none
  ended : ∀ m ∈ s.received, Is2xx m →
    (∃ a ∈ s.written c, IsRequest "ACK" a) ∧ ∃ b ∈ s.written c, IsRequest "BYE" b

/-- If placing the call has failed, it is left clean. -/
def State.FailsClean (s : State) : Prop := ∀ e c, s.phase = .failed e → s.call = some c → s.LeftClean c

def Phase.isFailed : Phase → Bool
  | failed _ => true
  | _ => false

/-- The event is no 200 without a tag. -/
def Tagged : TuEvent → Prop
  | .response status bytes => status = 200 → (extractToTag bytes).isSome
  | .terminated => True

instance : (e : TuEvent) → Decidable (Tagged e)
  | .response _ _ => inferInstanceAs (Decidable (_ → _))
  | .terminated => inferInstanceAs (Decidable True)

/-- The final response that is read is no 200 without a tag; when the endpoint is released
no 2xx has come in, and none comes in once the call has failed. -/
def NothingStranded (s : State) : Action → Prop
  | .next => ∀ e ∈ s.call.bind s.unread, Tagged e
  | .release => ∀ m ∈ s.received, ¬ Is2xx m
  | .response bytes => s.phase.isFailed → ¬ Is2xx bytes
  | _ => True

instance (s : State) : (a : Action) → Decidable (NothingStranded s a)
  | .next => inferInstanceAs (Decidable (∀ e ∈ s.call.bind s.unread, Tagged e))
  | .release => inferInstanceAs (Decidable (∀ m ∈ s.received, ¬ Is2xx m))
  | .response bytes => inferInstanceAs (Decidable (s.phase.isFailed → ¬ Is2xx bytes))
  | .place _ _ _ _ | .closed | .deadline | .ack | .leaveLive | .closeWindow | .drive _ | .others _ _ =>
    inferInstanceAs (Decidable True)

/-! ## no BYE is written -/

def NotBye (bytes : Bytes) : Prop := ¬ IsRequest "BYE" bytes

theorem notBye_toUtf8 {c : Char} (text : Text) {b : UInt8} (hc : String.utf8EncodeChar c = [b]) (hb : b ≠ 66) :
    NotBye (toUtf8 (c :: text)) := by
  have hbye : toUtf8 ("BYE".toList ++ [' ']) = [66, 89, 69, 32] := by decide +kernel
  unfold NotBye IsRequest
  rw [toUtf8_cons, hc, hbye]
  intro h
  exact hb (List.cons_prefix_cons.mp h).1.symm

theorem notBye_buildInvite (f : InviteFields) : NotBye (buildInvite f) :=
  notBye_toUtf8 _ (c := 'I') (b := 73) (by decide +kernel) (by decide)

theorem notBye_buildAck2xx (f : InviteFields) (branch toTag : Text) : NotBye (buildAck2xx f branch toTag) :=
  notBye_toUtf8 _ (c := 'A') (b := 65) (by decide +kernel) (by decide)

theorem acksMeet_notBye : AcksMeet NotBye := by
  intro invite response ack hack
  simp only [buildNonOkAck, Option.bind_eq_bind, Option.bind_eq_some_iff, Option.map_eq_some_iff] at hack
  obtain ⟨i, -, r, -, text, htext, rfl⟩ := hack
  simp only [buildNonOkAckText, Option.bind_eq_bind, Option.bind_eq_some_iff, Option.pure_def,
    Option.some.injEq] at htext
  obtain ⟨requestLine, -, requestUri, -, responseTo, -, via, -, hdrFrom, -, callId, -, cseqNum, -, rfl⟩ := htext
  exact notBye_toUtf8 _ (c := 'A') (b := 65) (by decide +kernel) (by decide)

/-! ## what every step keeps -/

/-- The endpoint is allocated, and what becomes of the call is open. -/
def Phase.holds : Phase → Bool
  | waiting | releasing _ | acking _ _ => true
  | _ => false

namespace State

variable {u : Client} {s s' : State} {a : Action} {c : Attempt}

structure Kept (s : State) : Prop where
  known : s.driver.Known
  writes : ∀ c, s.call = some c → s.driver.Writes NotBye c.entry
  sent : ∀ b ∈ s.sent, NotBye b
  ack : ∀ b, s.ack2xx = some b → NotBye b
  idle : s.phase = .idle → s.call = none
  allocated : s.phase.holds → ∀ c, s.call = some c → c.endpoint ∈ s.endpoints
  unrecorded : s.phase.isPlaced = false → ∀ c, s.call = some c → s.dialogs.lookup c.invite.callId = none

theorem kept_new (reliable : Bool) (endpoints : Finset Nat) (dialogs : KeyMap Text UacDialog) :
    (State.new reliable endpoints dialogs).Kept :=
  ⟨Driver.known_new reliable, nofun, nofun, nofun, fun _ => rfl, nofun, nofun⟩

section

variable (h : s.Kept)
include h

theorem Kept.notBye_written (hc : s.call = some c) : ∀ b ∈ s.written c, NotBye b := by
  obtain ⟨e, he, hwrites⟩ := (h.writes c hc).entry
  intro b hb
  rw [written, he] at hb
  obtain hb | hb := List.mem_append.mp hb
  · exact hwrites.sent b hb
  · exact h.sent b hb

theorem Kept.not_leftClean (hc : s.call = some c) {m : Bytes} (hm : m ∈ s.received) (h2xx : Is2xx m) :
    ¬ s.LeftClean c := by
  intro hclean
  obtain ⟨b, hb, hbye⟩ := (hclean.ended m hm h2xx).2
  exact h.notBye_written hc b hb hbye

theorem Kept.drive {driver : Driver} (hmove : s.driver.Moves driver) : Kept { s with driver } where
  known := Driver.known_moves h.known hmove
  writes c hc := Driver.writes_moves (h.writes c hc) acksMeet_notBye hmove
  sent := h.sent
  ack := h.ack
  idle := h.idle
  allocated := h.allocated
  unrecorded := h.unrecorded

theorem Kept.setPhase {phase : Phase} (hidle : phase = .idle → s.call = none)
    (hholds : phase.holds → s.phase.holds) (hplaced : phase.isPlaced = false → s.phase.isPlaced = false) :
    Kept { s with phase } where
  known := h.known
  writes := h.writes
  sent := h.sent
  ack := h.ack
  idle := hidle
  allocated hphase := h.allocated (hholds hphase)
  unrecorded hphase := h.unrecorded (hplaced hphase)

theorem Kept.send : Kept { s with sent := s.sent ++ s.ack2xx.toList } where
  known := h.known
  writes := h.writes
  sent b hb := (List.mem_append.mp hb).elim (h.sent b) fun hb => h.ack b (Option.mem_toList.mp hb)
  ack := h.ack
  idle := h.idle
  allocated := h.allocated
  unrecorded := h.unrecorded

end

theorem listen_frame (s : State) (c : Attempt) (bytes : Bytes) :
    ∃ driver sent, s.listen c bytes = { s with driver, sent } := by
  fun_cases listen s c bytes with
  | case2 => exact ⟨_, s.sent, rfl⟩
  | case3 => exact ⟨s.driver, _, rfl⟩
  | _ => exact ⟨s.driver, s.sent, rfl⟩

theorem Kept.listen (h : s.Kept) (c : Attempt) (bytes : Bytes) : (s.listen c bytes).Kept := by
  fun_cases State.listen s c bytes with
  | case2 => exact h.drive (Driver.moves_deliver c.key _)
  | case3 => exact h.send
  | _ => exact h

theorem Kept.read (h : s.Kept) (hphase : s.phase = .waiting) (c : Attempt) (e : TuEvent) : (s.read u c e).Kept := by
  have hopen : s.phase.holds = true := hphase ▸ rfl
  have hplaced : s.phase.isPlaced = false := hphase ▸ rfl
  fun_cases State.read u s c e with
  | case1 => exact h
  | case2 | case5 => exact h.setPhase nofun (fun _ => hopen) (fun _ => hplaced)
  | case3 => exact h.setPhase nofun nofun (fun _ => hplaced)
  | case4 =>
    have hack (tag : Text) : Kept { s with ack2xx := some (buildAck2xx c.invite c.ackBranch tag) } :=
      ⟨h.known, h.writes, h.sent, fun b hb => Option.some.inj hb ▸ notBye_buildAck2xx _ _ _, h.idle, h.allocated,
        h.unrecorded⟩
    exact (hack _).setPhase nofun (fun _ => hopen) (fun _ => hplaced)

/-! ## what a step is -/

/-- The steps, each with what holds where it is taken. -/
inductive Moves (u : Client) (s : State) : Action → State → Prop
  /-- The target is no address, or no endpoint is to be had. -/
  | failsEarly {target : Text} {allocated : Except Text Nat} {sdpOffer : Text} {fresh : Fresh}
      (hphase : s.phase = .idle) (e : UacError) :
        Moves u s (.place target allocated sdpOffer fresh) { s with phase := .failed e }
  | starts {target : Text} {endpoint : Nat} {sdpOffer : Text} {fresh : Fresh} (hphase : s.phase = .idle)
      (c : Attempt) {driver : Driver} (hendpoint : c.endpoint = endpoint)
      (hentry : c.entry = s.driver.entries.length)
      (hstart : s.driver.step (.startClient (.invite (String.ofList c.invite.branch) (buildInvite c.invite))) = some driver)
      (hnew : s.dialogs.lookup c.invite.callId = none) :
      Moves u s (.place target (.ok endpoint) sdpOffer fresh)
        { s with
          driver, endpoints := insert endpoint s.endpoints, phase := .waiting, call := some c, listener := .live }
  | reads (hphase : s.phase = .waiting) {c : Attempt} (hc : s.call = some c) {e : TuEvent} (he : s.unread c = some e) :
      Moves u s .next ({ s with tuRead := s.tuRead + 1 }.read u c e)
  | givesUp {a : Action} (hphase : s.phase = .waiting) (e : UacError) (ha : a = .closed ∨ a = .deadline) :
      Moves u s a { s with phase := .releasing e }
  | releases {e : UacError} (hphase : s.phase = .releasing e) {c : Attempt} (hc : s.call = some c) :
      Moves u s .release { s with endpoints := s.endpoints.erase c.endpoint, phase := .failed e }
  | acks {c : Attempt} (dialogs : KeyMap Text UacDialog) (published : List (Text × Nat × Option SocketAddr)) :
      Moves u s .ack { s with
        sent := s.sent ++ s.ack2xx.toList, dialogs, published, phase := .placed c.invite.callId }
  | hears {c : Attempt} (hc : s.call = some c) (bytes : Bytes) :
      Moves u s (.response bytes) ({ s with received := s.received ++ [bytes] }.listen c bytes)
  | listens {a : Action} (ha : a = .leaveLive ∨ a = .closeWindow) (listener : Listener) {ack2xx : Option Bytes}
      (hack : ∀ b ∈ ack2xx, b ∈ s.ack2xx) : Moves u s a { s with listener, ack2xx }
  | drives (a : DriverAction) {driver : Driver} (hmove : s.driver.Moves driver) : Moves u s (.drive a) { s with driver }
  | others {endpoints : Finset Nat} {dialogs : KeyMap Text UacDialog}
      (hapart : s.phase.isPlaced ∨ s.Apart endpoints dialogs) :
        Moves u s (.others endpoints dialogs) { s with endpoints, dialogs }

theorem place_moves {target : Text} {allocated : Except Text Nat} {sdpOffer : Text} {fresh : Fresh}
    (hphase : s.phase = .idle) (hplace : s.place u target allocated sdpOffer fresh = some s') :
    Moves u s (.place target allocated sdpOffer fresh) s' := by
  unfold place at hplace
  split at hplace
  · exact Option.some.inj hplace ▸ .failsEarly hphase _
  · split at hplace
    · exact Option.some.inj hplace ▸ .failsEarly hphase _
    · exact Option.some.inj hplace ▸ .failsEarly hphase _
    · simp only at hplace
      split at hplace
      · contradiction
      · next hfree =>
        obtain ⟨driver, hstart, rfl⟩ := Option.map_eq_some_iff.mp hplace
        simp only [not_or, Option.not_isSome_iff_eq_none] at hfree
        exact .starts hphase _ rfl rfl hstart hfree.2

theorem step_moves (hstep : step u s a = some s') : Moves u s a s' := by
  cases a with
  | place target allocated sdpOffer fresh =>
    simp only [step] at hstep
    split at hstep
    · next hphase => exact place_moves hphase hstep
    · contradiction
  | next =>
    simp only [step] at hstep
    split at hstep
    · next c hphase hc =>
      obtain ⟨e, he, rfl⟩ := Option.map_eq_some_iff.mp hstep
      exact .reads hphase hc he
    · contradiction
  | closed =>
    simp only [step] at hstep
    split at hstep
    · next c hphase hc =>
      split at hstep
      · exact Option.some.inj hstep ▸ .givesUp hphase _ (.inl rfl)
      · contradiction
    · contradiction
  | deadline =>
    simp only [step] at hstep
    split at hstep
    · next hphase => exact Option.some.inj hstep ▸ .givesUp hphase _ (.inr rfl)
    · contradiction
  | release =>
    simp only [step] at hstep
    split at hstep
    · next e c hphase hc => exact Option.some.inj hstep ▸ .releases hphase hc
    · contradiction
  | ack =>
    simp only [step] at hstep
    split at hstep
    · exact Option.some.inj hstep ▸ .acks _ _
    · contradiction
  | response bytes =>
    obtain ⟨c, hc, rfl⟩ := Option.map_eq_some_iff.mp hstep
    exact .hears hc bytes
  | leaveLive =>
    simp only [step] at hstep
    split at hstep
    · split at hstep
      · split at hstep
        · exact Option.some.inj hstep ▸ .listens (.inl rfl) _ fun b hb => hb
        · exact Option.some.inj hstep ▸ .listens (.inl rfl) _ nofun
      · contradiction
    · contradiction
  | closeWindow =>
    simp only [step] at hstep
    split at hstep
    · exact Option.some.inj hstep ▸ .listens (.inr rfl) _ nofun
    · contradiction
  | drive a =>
    simp only [step] at hstep
    split at hstep
    · obtain ⟨driver, hdrive, rfl⟩ := Option.map_eq_some_iff.mp hstep
      exact .drives a (Driver.step_moves hdrive)
    · contradiction
  | others endpoints dialogs =>
    simp only [step] at hstep
    split at hstep
    · next hapart => exact Option.some.inj hstep ▸ .others hapart
    · contradiction

theorem Kept.moves (h : s.Kept) (hmove : Moves u s a s') : s'.Kept := by
  cases hmove with
  | failsEarly hphase e => exact h.setPhase nofun nofun fun _ => hphase ▸ rfl
  | starts hphase c hendpoint hentry hstart hnew =>
    refine ⟨Driver.known_moves h.known (Driver.step_moves hstart), ?_, h.sent, h.ack, nofun, ?_, ?_⟩
    · rintro _ ⟨⟩
      exact hentry ▸ Driver.writes_startClient h.known _ (notBye_buildInvite c.invite) hstart
    · rintro - _ ⟨⟩
      exact hendpoint ▸ Finset.mem_insert_self _ _
    · rintro - _ ⟨⟩
      exact hnew
  | reads hphase hc he =>
    have hread : Kept { s with tuRead := s.tuRead + 1 } :=
      ⟨h.known, h.writes, h.sent, h.ack, h.idle, h.allocated, h.unrecorded⟩
    exact hread.read hphase _ _
  | givesUp hphase e ha => exact h.setPhase nofun (fun _ => hphase ▸ rfl) fun _ => hphase ▸ rfl
  | releases hphase hc =>
    exact ⟨h.known, h.writes, h.sent, h.ack, nofun, nofun, fun _ => h.unrecorded (hphase ▸ rfl)⟩
  | acks dialogs published =>
    have hsent := h.send
    exact ⟨hsent.known, hsent.writes, hsent.sent, hsent.ack, nofun, nofun, nofun⟩
  | hears hc bytes =>
    have hreceived : Kept { s with received := s.received ++ [bytes] } :=
      ⟨h.known, h.writes, h.sent, h.ack, h.idle, h.allocated, h.unrecorded⟩
    exact hreceived.listen _ bytes
  | listens ha listener hack =>
    exact ⟨h.known, h.writes, h.sent, fun b hb => h.ack b (hack b hb), h.idle, h.allocated, h.unrecorded⟩
  | drives a hmove => exact h.drive hmove
  | others hapart =>
    refine ⟨h.known, h.writes, h.sent, h.ack, h.idle, fun hholds c hc => ?_, fun hplaced c hc => ?_⟩
    · have hplaced : s.phase.isPlaced = false := by
        revert hholds
        cases s.phase <;> simp [Phase.holds, Phase.isPlaced]
      have hapart := hapart.resolve_left (by simp [hplaced])
      exact (hapart c hc).1.mpr (h.allocated hholds c hc)
    · have hapart := hapart.resolve_left (by simp_all)
      exact (hapart c hc).2.trans (h.unrecorded hplaced c hc)

/-! ## the calls that fail -/

/-- A call that has failed has its endpoint released, and no 2xx has come in for it. -/
def Settled (s : State) : Prop :=
  ∀ e c, s.phase = .failed e → s.call = some c → c.endpoint ∉ s.endpoints ∧ ∀ m ∈ s.received, ¬ Is2xx m

theorem failsClean_of_settled (h : s.Kept) (hsettled : s.Settled) : s.FailsClean := by
  intro e c hphase hc
  obtain ⟨hreleased, hnone⟩ := hsettled e c hphase hc
  exact ⟨hreleased, h.unrecorded (hphase ▸ rfl) c hc, fun m hm h2xx => absurd h2xx (hnone m hm)⟩

theorem isFailed_read (hphase : s.phase = .waiting) {e : TuEvent} (htag : Tagged e) :
    (s.read u c e).phase.isFailed = false := by
  fun_cases State.read u s c e with
  | case1 => rw [hphase]; rfl
  | case3 => simp_all [Tagged]
  | _ => rfl

theorem settled_moves (h : s.Kept) (hsettled : s.Settled) (hok : NothingStranded s a) (hmove : Moves u s a s') :
    s'.Settled := by
  intro e c hfailed hcall
  cases hmove with
  | failsEarly hphase e => cases (h.idle hphase).symm.trans hcall
  | starts | givesUp | acks => cases hfailed
  | @reads hphase c₀ hc e₀ he =>
    have htag := hok e₀ (Option.mem_def.mpr (by rw [hc]; exact he))
    have hopen := isFailed_read (u := u) (s := { s with tuRead := s.tuRead + 1 }) (c := c₀) hphase htag
    rw [hfailed] at hopen
    cases hopen
  | releases hphase hc =>
    cases hc.symm.trans hcall
    exact ⟨Finset.notMem_erase _ _, hok⟩
  | @hears c₀ hc bytes =>
    obtain ⟨driver, sent, hframe⟩ := listen_frame { s with received := s.received ++ [bytes] } c₀ bytes
    rw [hframe] at hfailed hcall ⊢
    obtain ⟨hreleased, hnone⟩ := hsettled e c hfailed hcall
    refine ⟨hreleased, fun m hm => ?_⟩
    obtain hm | hm := List.mem_append.mp hm
    · exact hnone m hm
    · have hfails : s.phase.isFailed = true := by rw [show s.phase = .failed e from hfailed]; rfl
      exact List.mem_singleton.mp hm ▸ hok hfails
  | listens ha listener hack => exact hsettled e c hfailed hcall
  | drives a hmove => exact hsettled e c hfailed hcall
  | others hapart =>
    obtain ⟨hreleased, hnone⟩ := hsettled e c hfailed hcall
    have hapart := hapart.resolve_left (by rw [show s.phase = .failed e from hfailed]; nofun)
    exact ⟨fun hin => hreleased ((hapart c hcall).1.mp hin), hnone⟩

theorem read_untagged {e : TuEvent} (h : ¬ Tagged e) : ∃ error, s.read u c e = { s with phase := .failed error } := by
  fun_cases State.read u s c e with
  | case3 => exact ⟨_, rfl⟩
  | _ => exact absurd h (by simp_all [Tagged]; try omega)

theorem not_failsClean_moves (h : s.Kept) (hbad : ¬ NothingStranded s a) (hmove : Moves u s a s') :
    ¬ s'.FailsClean := by
  have hkept := h.moves hmove
  intro hclean
  cases hmove with
  | failsEarly | starts | acks | drives | others => exact hbad trivial
  | givesUp hphase e ha => obtain rfl | rfl := ha <;> exact hbad trivial
  | listens ha => obtain rfl | rfl := ha <;> exact hbad trivial
  | @reads hphase c hc e he =>
    have huntagged : ¬ Tagged e := by
      intro htag
      refine hbad fun e' he' => ?_
      rw [hc] at he'
      exact Option.mem_unique he he' ▸ htag
    obtain ⟨error, hread⟩ := read_untagged (u := u) (s := { s with tuRead := s.tuRead + 1 }) (c := c) huntagged
    rw [hread] at hclean
    exact (hclean error c rfl hc).released (h.allocated (hphase ▸ rfl) c hc)
  | @releases e hphase c hc =>
    simp only [NothingStranded, not_forall, not_not] at hbad
    obtain ⟨m, hm, h2xx⟩ := hbad
    exact hkept.not_leftClean hc hm h2xx (hclean e c rfl hc)
  | @hears c hc bytes =>
    obtain ⟨hfails, h2xx⟩ := Classical.not_imp.mp hbad
    obtain ⟨driver, sent, hframe⟩ := listen_frame { s with received := s.received ++ [bytes] } c bytes
    rw [hframe] at hclean hkept
    cases hphase : s.phase with
    | failed e =>
      have hin : bytes ∈ s.received ++ [bytes] := List.mem_append_right _ (List.mem_singleton_self bytes)
      exact hkept.not_leftClean hc hin (not_not.mp h2xx) (hclean e c hphase hc)
    | _ => rw [hphase] at hfails; cases hfails

end State

/-! ## the result -/

/-- **A call that fails leaves nothing behind** in every state of a run exactly when the run
strands nothing: the final response read is no 200 without a tag, no 2xx has come in when the
endpoint of a call that is given up is released, and none comes in after that. -/
theorem place_call_fails_clean (u : Client) (reliable : Bool) (endpoints : Finset Nat) (dialogs : KeyMap Text UacDialog)
    (acts : List Action) (s : State) (hexec : exec (step u) (.new reliable endpoints dialogs) acts = some s) :
    (∀ before after s₁, acts = before ++ after → exec (step u) (.new reliable endpoints dialogs) before = some s₁ →
      s₁.FailsClean) ↔
    Meets (step u) NothingStranded (.new reliable endpoints dialogs) acts := by
  refine meets_iff (I := fun s => s.Kept ∧ s.Settled) ?_ ?_ ?_ hexec ⟨State.kept_new _ _ _, nofun⟩
  · rintro s ⟨hkept, hsettled⟩
    exact State.failsClean_of_settled hkept hsettled
  · rintro s a s' ⟨hkept, hsettled⟩ hok hstep
    have hmove := State.step_moves hstep
    exact ⟨hkept.moves hmove, State.settled_moves hkept hsettled hok hmove⟩
  · rintro s a s' ⟨hkept, -⟩ hbad hstep
    exact State.not_failsClean_moves hkept hbad (State.step_moves hstep)

/-- A client that calls one host. -/
def sampleClient : Client where
  localSipAddr := "192.0.2.1:5060".toList
  viaTransport := "UDP".toList
  deadlineMillis := 30000
  parseAddr text := if text = "192.0.2.7:5060".toList then some (.v4 0xC0000207 5060) else none
  parseRemoteRtp _ := none

/-- The call is placed and its INVITE sent; the peer answers, and the event is read. -/
def sampleCall (response : Bytes) : List Action :=
  ([.place "sip:bob@192.0.2.7".toList (.ok 4) [] ⟨"c1".toList, "uac-1".toList, "z9hG4bK-1".toList,
    "z9hG4bK-2".toList⟩] : List Action) ++
    (List.replicate 6 (.drive (.run 0)) : List Action) ++
    ([.response response, .drive (.run 1), .drive (.run 1), .next] : List Action)

/-- Where the call stands, and whether its endpoint is allocated. -/
def State.outcome (s : State) : Phase × Bool := (s.phase, decide (4 ∈ s.endpoints))

/-- A call that is refused. -/
theorem place_call_fails_clean_busy :
    (exec (step sampleClient) (.new false ∅ ∅) (sampleCall (toUtf8 busyResponse) ++ [.release])).map State.outcome =
        some (.failed (.rejected 486 "Busy Here".toList), false) ∧
      ∀ before after s, sampleCall (toUtf8 busyResponse) ++ [.release] = before ++ after →
        exec (step sampleClient) (.new false ∅ ∅) before = some s → s.FailsClean := by
  have huri : "sip:bob@192.0.2.7".toList = _ := String.toList_ofList
  have hbusy : busyResponse = _ := String.toList_ofList
  have hrun : (exec (step sampleClient) (.new false ∅ ∅) (sampleCall (toUtf8 busyResponse) ++ [.release])).map
      State.outcome = some (.failed (.rejected 486 "Busy Here".toList), false) := by
    rw [hbusy, sampleCall, huri]
    decide +kernel
  have hmeets : Meets (step sampleClient) NothingStranded (.new false ∅ ∅)
    (sampleCall (toUtf8 busyResponse) ++ [.release]) := by
    rw [hbusy, sampleCall, huri]
    decide +kernel
  obtain ⟨s, hexec, -⟩ := Option.map_eq_some_iff.mp hrun
  exact ⟨hrun, (place_call_fails_clean sampleClient false ∅ ∅ _ s hexec).mpr hmeets⟩

/-- An answer without a tag. -/
def untaggedOk : Text := "SIP/2.0 200 OK\r\nTo: <sip:bob@192.0.2.7>\r\nCSeq: 1 INVITE\r\n\r\n".toList

theorem untagged_ok_leaks :
    ¬ ∀ (u : Client) (reliable : Bool) (endpoints : Finset Nat) (dialogs : KeyMap Text UacDialog) (acts : List Action)
      (s : State), exec (step u) (.new reliable endpoints dialogs) acts = some s → s.FailsClean := by
  intro h
  have hrun : (exec (step sampleClient) (.new false ∅ ∅) (sampleCall (toUtf8 untaggedOk))).map (fun s =>
      ((match s.phase with | .failed _ => true | _ => false), decide (4 ∈ s.endpoints), s.call.map Attempt.endpoint)) =
        some (true, true, some 4) := by
    rw [show untaggedOk = _ from String.toList_ofList, sampleCall,
      show "sip:bob@192.0.2.7".toList = _ from String.toList_ofList]
    decide +kernel
  obtain ⟨s, hexec, hs⟩ := Option.map_eq_some_iff.mp hrun
  simp only [Prod.mk.injEq, decide_eq_true_eq, Option.map_eq_some_iff] at hs
  obtain ⟨hphase, hallocated, c, hc, hendpoint⟩ := hs
  split at hphase
  · next e hfailed => exact (h _ _ _ _ _ s hexec e c hfailed hc).released (hendpoint ▸ hallocated)
  · contradiction

end SmithsNet.Uac
