import Mathlib
import SmithsNet.Lib.Exec
import SmithsNet.Txn.ServerInvite

/-!
# SmithsNet.Uas.Cancel

CANCEL against a pending INVITE (`smiths-sip/src/uas.rs`): the ingress fast
path `cancel_pending_invite`, the handlers `handle_invite` and
`handle_reinvite`, and what they share — the server INVITE machines of the
transaction driver and the table `cancelled_invites` of accepted CANCELs.

Everything a handler does between two accesses to that shared state is one
action; which way it goes there (authentication, offer, media) is a choice the
action carries.  What is claimed of it is `CancelsHonoured`; it is proved in
`SmithsNet.Uas.CancelHonoured`.
-/

namespace SmithsNet.Uas

open Lib Txn

/-! ## the parties -/

/-- What an INVITE's handling depends on here. -/
structure InviteRequest where
  branch : String
  /-- The To-tag of the request: present in a re-INVITE. -/
  toTag : Option String

/-- Where an INVITE handler stands. -/
inductive Phase
  /-- In its worker's queue. -/
  | queued
  /-- Not cancelled so far: drain check and authentication. -/
  | admitting
  /-- About to send `100 Trying`. -/
  | greeting
  /-- About to check Call-ID and From-tag. -/
  | identifying
  /-- About to negotiate the session timer. -/
  | timing
  /-- About to negotiate the offer. -/
  | offering
  /-- About to look for a CANCEL a second time. -/
  | rechecking
  /-- Not cancelled: about to take the To-tag. -/
  | tagging
  /-- Connecting the media; the To-tag is fixed. -/
  | attaching (tag : String)
  /-- Refused: about to take the To-tag. -/
  | refusing (status : Nat)
  /-- About to send the final response. -/
  | responding (status : Nat) (tag : String)
  | done
  deriving DecidableEq

/-- An INVITE handler. -/
structure Handler where
  request : InviteRequest
  phase : Phase

/-- Where the answer to a CANCEL stands. -/
inductive CancelPhase
  | arrived
  /-- The INVITE transaction was found in Proceeding. -/
  | matched (invite : Nat)
  /-- The INVITE is flagged; the `200 OK` is still to be sent. -/
  | flagged (invite : Nat) (tag : String)
  | done

/-- A CANCEL being answered. -/
structure CancelTask where
  branch : String
  toTag : Option String
  phase : CancelPhase

/-- Entry of `cancelled_invites`.  The program stores the tag; `invite`
records which transaction the CANCEL had matched. -/
structure Flag where
  tag : String
  invite : Nat

/-- A CANCEL that matched a pending INVITE and was answered `200 OK`. -/
structure Answer where
  invite : Nat
  /-- To-tag of the `200 OK`. -/
  tag : String
  deriving DecidableEq

/-- The user agent server, as far as CANCEL is concerned.  INVITE transactions
are numbered as they come in; `answers` and `finals` are logs. -/
structure Server where
  reliable : Bool
  invites : Nat
  txns : String → Option (Nat × ServerInviteTxn)
  handlers : Nat → Option Handler
  cancels : Nat → Option CancelTask
  cancelledInvites : String → Option Flag
  answers : List Answer
  finals : Nat → Option (Nat × String)

/-- Nothing received yet. -/
def Server.new (reliable : Bool) : Server where
  reliable := reliable
  invites := 0
  txns _ := none
  handlers _ := none
  cancels _ := none
  cancelledInvites _ := none
  answers := []
  finals _ := none

/-! ## the steps -/

/-- Refusals open to a handler, by phase: 503 while draining, 401 or 500 from
authentication; 400 without dialog identifiers; 422 for a short session
interval; 500, 488 or 400 from the offer; 488, 503 or 500 from the media. -/
def refusals : Phase → List Nat
  | .admitting => [503, 401, 500]
  | .identifying => [400]
  | .timing => [422]
  | .offering => [500, 488, 400]
  | .attaching _ => [488, 503, 500]
  | _ => []

/-- What follows when nothing is wrong. -/
def Phase.next : Phase → Option Phase
  | .admitting => some .greeting
  | .identifying => some .timing
  | .timing => some .offering
  | .offering => some .rechecking
  | .attaching tag => some (.responding 200 tag)
  | _ => none

/-- What follows a refusal: the To-tag is still to be taken, unless the media
refused, where it already is. -/
def Phase.refuse (status : Nat) : Phase → Phase
  | .attaching tag => .responding status tag
  | _ => .refusing status

/-- One step of some party. -/
inductive Action
  /-- An INVITE with no live transaction comes in. -/
  | invite (request : InviteRequest)
  /-- A retransmission, an ACK or a timer reaches an INVITE machine. -/
  | txnEvent (branch : String) (e : TransactionEvent)
  /-- A terminated machine leaves the driver. -/
  | reap (branch : String)
  /-- `invite_was_cancelled`, at either of its two places. -/
  | check (i : Nat)
  /-- A phase that neither sends nor looks at the flags ends. -/
  | proceed (i : Nat) (refusal : Option Nat)
  /-- `100 Trying`. -/
  | greet (i : Nat) (bytes : Bytes)
  /-- `take_invite_tag`; `fresh` is what `next_tag` gives. -/
  | takeTag (i : Nat) (fresh : String)
  /-- A re-INVITE is handled up to its final response. -/
  | renegotiate (i : Nat) (status : Nat) (localTag : String)
  /-- `respond` with the final. -/
  | respond (i : Nat) (bytes : Bytes)
  /-- A CANCEL comes in. -/
  | cancel (c : Nat) (branch : String) (toTag : Option String)
  /-- The CANCEL reads the state of the INVITE machine. -/
  | lookUp (c : Nat)
  /-- The CANCEL flags the INVITE; `tag` is what `next_tag` gives. -/
  | flag (c : Nat) (tag : String)
  /-- The CANCEL is answered. -/
  | answer (c : Nat)

/-- Events of the network and of timers: everything but the handler's own. -/
def fromOutside : TransactionEvent → Bool
  | .requestReceived _ _ | .timerFired _ => true
  | _ => false

namespace Server

/-- A fresh INVITE gets a machine in the driver and a place in its worker's
queue. -/
def enqueue (s : Server) (request : InviteRequest) : Server :=
  { s with
    invites := s.invites + 1
    txns := Function.update s.txns request.branch
      (some (s.invites, { ServerInviteTxn.new request.branch with reliable := s.reliable }))
    handlers := Function.update s.handlers s.invites (some ⟨request, .queued⟩) }

@[simp] theorem handlers_enqueue_self (s : Server) (request : InviteRequest) :
    (s.enqueue request).handlers s.invites = some ⟨request, .queued⟩ := Function.update_self ..

theorem handlers_enqueue_ne (s : Server) {j : Nat} (hj : j ≠ s.invites) (request : InviteRequest) :
    (s.enqueue request).handlers j = s.handlers j := Function.update_of_ne hj ..

@[simp] theorem txns_enqueue_self (s : Server) (request : InviteRequest) :
    (s.enqueue request).txns request.branch =
      some (s.invites, { ServerInviteTxn.new request.branch with reliable := s.reliable }) :=
  Function.update_self ..

theorem txns_enqueue_ne (s : Server) {request : InviteRequest} {b : String}
    (hb : b ≠ request.branch) : (s.enqueue request).txns b = s.txns b :=
  Function.update_of_ne hb ..

/-- Move handler `i` to another phase. -/
def setPhase (s : Server) (i : Nat) (h : Handler) (phase : Phase) : Server :=
  { s with handlers := Function.update s.handlers i (some { h with phase }) }

@[simp] theorem handlers_setPhase_self (s : Server) (i : Nat) (h : Handler) (phase : Phase) :
    (s.setPhase i h phase).handlers i = some { h with phase } := Function.update_self ..

theorem handlers_setPhase_ne (s : Server) {i j : Nat} (hij : j ≠ i) (h : Handler) (phase : Phase) :
    (s.setPhase i h phase).handlers j = s.handlers j := Function.update_of_ne hij ..

/-- Move CANCEL `c` to another phase. -/
def setCancel (s : Server) (c : Nat) (t : CancelTask) (phase : CancelPhase) : Server :=
  { s with cancels := Function.update s.cancels c (some { t with phase }) }

/-- Feed one event to the machine of `branch`, if there is one. -/
def feed (s : Server) (branch : String) (e : TransactionEvent) : Server :=
  match s.txns branch with
  | some (i, t) => { s with txns := Function.update s.txns branch (some (i, (t.onEvent e).1)) }
  | none => s

/-- `handle_invite` looks for a CANCEL of its branch. -/
def checkFlag (s : Server) (i : Nat) (h : Handler) (otherwise : Phase) : Server :=
  if (s.cancelledInvites h.request.branch).isSome then s.setPhase i h (.refusing 487)
  else s.setPhase i h otherwise

/-- `take_invite_tag`: the flag's tag, consuming it, else a fresh one. -/
def takeInviteTag (s : Server) (branch fresh : String) : String × Server :=
  (((s.cancelledInvites branch).map Flag.tag).getD fresh,
    { s with cancelledInvites := Function.update s.cancelledInvites branch none })

/-- Final responses a re-INVITE can get without a To-tag of its own: 400, 481,
500, 488, or 200. -/
def reinviteStatuses : List Nat := [400, 481, 500, 488, 200]

/-- The state after one action; `none` when it is not possible. -/
def step (s : Server) : Action → Option Server
  | .invite request =>
    match s.txns request.branch with
    | some _ => none
    | none => some (s.enqueue request)
  | .txnEvent branch e => if fromOutside e then some (s.feed branch e) else none
  | .reap branch =>
    match s.txns branch with
    | some (_, t) =>
      if t.state = .terminated then
        some { s with txns := Function.update s.txns branch none }
      else none
    | none => none
  | .check i =>
    match s.handlers i with
    | some h =>
      match h.phase, h.request.toTag with
      | .queued, none => some (s.checkFlag i h .admitting)
      | .rechecking, _ => some (s.checkFlag i h .tagging)
      | _, _ => none
    | none => none
  | .proceed i refusal =>
    match s.handlers i with
    | some h =>
      match refusal with
      | none => (h.phase.next).map (s.setPhase i h)
      | some status =>
        if status ∈ refusals h.phase then some (s.setPhase i h (h.phase.refuse status))
        else none
    | none => none
  | .greet i bytes =>
    match s.handlers i with
    | some h =>
      match h.phase with
      | .greeting =>
        some ((s.setPhase i h .identifying).feed h.request.branch
          (.sendResponseFromTu 100 bytes))
      | _ => none
    | none => none
  | .takeTag i fresh =>
    match s.handlers i with
    | some h =>
      match h.phase with
      | .refusing status =>
        let r := s.takeInviteTag h.request.branch fresh
        some (r.2.setPhase i h (.responding status r.1))
      | .tagging =>
        let r := s.takeInviteTag h.request.branch fresh
        some (r.2.setPhase i h (.attaching r.1))
      | _ => none
    | none => none
  | .renegotiate i status localTag =>
    match s.handlers i with
    | some h =>
      match h.phase, h.request.toTag with
      | .queued, some _ =>
        if status = 422 then some (s.setPhase i h (.refusing 422))
        else if status ∈ reinviteStatuses then
          some (s.setPhase i h (.responding status localTag))
        else none
      | _, _ => none
    | none => none
  | .respond i bytes =>
    match s.handlers i with
    | some h =>
      match h.phase with
      | .responding status tag =>
        let sent := (s.setPhase i h .done).feed h.request.branch
          (.sendResponseFromTu status bytes)
        some { sent with
          finals := Function.update s.finals i (some (status, h.request.toTag.getD tag)) }
      | _ => none
    | none => none
  | .cancel c branch toTag =>
    match s.cancels c with
    | some _ => none
    | none => some { s with
        cancels := Function.update s.cancels c (some ⟨branch, toTag, .arrived⟩) }
  | .lookUp c =>
    match s.cancels c with
    | some t =>
      match t.phase with
      | .arrived =>
        match s.txns t.branch with
        | some (i, m) =>
          -- answered without effect unless the INVITE is pending
          if m.state = .proceeding then some (s.setCancel c t (.matched i))
          else some (s.setCancel c t .done)
        -- handed to the Call-ID worker
        | none => some (s.setCancel c t .done)
      | _ => none
    | none => none
  | .flag c tag =>
    match s.cancels c with
    | some t =>
      match t.phase with
      | .matched i =>
        some { s.setCancel c t (.flagged i tag) with
          cancelledInvites := Function.update s.cancelledInvites t.branch (some ⟨tag, i⟩) }
      | _ => none
    | none => none
  | .answer c =>
    match s.cancels c with
    | some t =>
      match t.phase with
      | .flagged i tag =>
        some { s.setCancel c t .done with
          answers := s.answers ++ [⟨i, t.toTag.getD tag⟩] }
      | _ => none
    | none => none

end Server

/-! ## what is claimed -/

/-- Every CANCEL answered for a pending INVITE is honoured: once that INVITE
has its final response, it is no 2xx, it carries the To-tag of the CANCEL's
`200 OK`, and no entry of the transaction is left in the table. -/
def CancelsHonoured (s : Server) : Prop :=
  ∀ a ∈ s.answers, ∀ status tag, s.finals a.invite = some (status, tag) →
    ¬ (200 ≤ status ∧ status < 300) ∧ tag = a.tag ∧
      ∀ branch f, s.cancelledInvites branch = some f → f.invite ≠ a.invite

/-- The handler will still look for a CANCEL, or take its tag on the way to a
refusal. -/
def Phase.pending : Phase → Bool
  | .queued | .admitting | .greeting | .identifying | .timing | .offering | .rechecking
  | .refusing _ => true
  | _ => false

/-- A CANCEL flags the INVITE it matched in time: that is an initial INVITE
whose handler has yet to take its To-tag or to look for a CANCEL a last time,
no other CANCEL has flagged it, and the CANCEL repeats its To header. -/
def FlagsInTime (s : Server) : Action → Prop
  | .flag c _ => ∀ t i, s.cancels c = some t → t.phase = .matched i →
      t.toTag = none ∧ s.cancelledInvites t.branch = none ∧
        ∃ h, s.handlers i = some h ∧ h.request.toTag = none ∧ h.phase.pending = true
  | _ => True

end SmithsNet.Uas
