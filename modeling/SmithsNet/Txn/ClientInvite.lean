import SmithsNet.Txn.Ack

/-!
# SmithsNet.Txn.ClientInvite

The client INVITE machine (`txn/client_invite.rs`, RFC 3261 §17.1.1).  A 2xx
terminates it at once, a non-2xx final is acknowledged and absorbed for timer
D (zero on a reliable transport), timer B bounds the wait for a final.
-/

namespace SmithsNet.Txn

open Lib

/-- Timer D on an unreliable transport: 32 s. -/
def TIMER_D : Nat := 32000

/-- Effective cap of timer A: one hour; the real stop condition is timer B. -/
def TIMER_A_CAP : Nat := 3600000

/-- Client INVITE machine. -/
structure ClientInviteTxn where
  key : TransactionKey
  state : TransactionState
  invite : Bytes
  ackForNonOk : Option Bytes
  attempt : Nat
  reliable : Bool

namespace ClientInviteTxn

/-- A fresh machine for an outbound INVITE. -/
def new (branch : String) (request : Bytes) : ClientInviteTxn where
  key := { branch, method := "INVITE", role := .client }
  state := .calling
  invite := request
  ackForNonOk := none
  attempt := 0
  reliable := false

/-- Enter Completed on a non-2xx final: deliver, cancel A and B, send the ACK
if one could be built, then arm D — or terminate when D is zero. -/
def enterCompletedNonOk (t : ClientInviteTxn) (status : Nat) (finalBytes : Bytes) :
    ClientInviteTxn × List TransactionAction :=
  let ack := buildNonOkAck t.invite finalBytes
  ({ t with
      state := if t.reliable then .terminated else .completed
      ackForNonOk := ack },
    [.deliverResponseToTu status finalBytes, .cancelTimer .A, .cancelTimer .B] ++
      (ack.map .sendToPeer).toList ++
      [if t.reliable then .terminated else .armTimer .D TIMER_D])

/-- 2xx bypass: deliver, cancel A and B, terminate. -/
def enterTerminatedOn2xx (t : ClientInviteTxn) (status : Nat) (finalBytes : Bytes) :
    ClientInviteTxn × List TransactionAction :=
  ({ t with state := .terminated },
    [.deliverResponseToTu status finalBytes, .cancelTimer .A, .cancelTimer .B, .terminated])

/-- One event.  The arms are the source's, in its order; what no arm takes is
absorbed silently. -/
def onEvent (t : ClientInviteTxn) (e : TransactionEvent) :
    ClientInviteTxn × List TransactionAction :=
  match t.state, e with
  | .calling, .startClient =>
    (t, [.sendToPeer t.invite] ++ (if t.reliable then [] else [.armTimer .A T1]) ++
      [.armTimer .B TIMEOUT_64T1])
  | .calling, .timerFired .A =>
    let attempt := nextAttempt t.attempt
    ({ t with attempt },
      [.sendToPeer t.invite, .armTimer .A (doublingBackoff attempt TIMER_A_CAP)])
  | .calling, .responseReceived status bytes =>
    if 100 ≤ status ∧ status < 200 then
      ({ t with state := .proceeding }, [.cancelTimer .A, .deliverResponseToTu status bytes])
    else if 200 ≤ status ∧ status < 300 then t.enterTerminatedOn2xx status bytes
    else if 300 ≤ status ∧ status < 700 then t.enterCompletedNonOk status bytes
    else (t, [])
  | .proceeding, .responseReceived status bytes =>
    if 100 ≤ status ∧ status < 200 then (t, [.deliverResponseToTu status bytes])
    else if 200 ≤ status ∧ status < 300 then t.enterTerminatedOn2xx status bytes
    else if 300 ≤ status ∧ status < 700 then t.enterCompletedNonOk status bytes
    else (t, [])
  | .calling, .timerFired .B | .proceeding, .timerFired .B =>
    ({ t with state := .terminated }, [.cancelTimer .A, .terminated])
  | .completed, .responseReceived status _ =>
    if 300 ≤ status ∧ status < 700 then
      match t.ackForNonOk with
      | some ack => (t, [.sendToPeer ack])
      | none => (t, [])
    else (t, [])
  | .completed, .timerFired .D => ({ t with state := .terminated }, [.terminated])
  | _, _ => (t, [])

instance : Transaction ClientInviteTxn where
  key t := t.key
  state t := t.state
  setReliable t reliable := { t with reliable }
  onEvent := onEvent

end ClientInviteTxn

end SmithsNet.Txn
