import SmithsNet.Txn.Basic

/-!
# SmithsNet.Txn.ServerNonInvite

The server non-INVITE machine (`txn/server_non_invite.rs`, RFC 3261 §17.2.2):
whatever the Transaction User answers is sent and cached, and request
retransmissions are answered from the cache until timer J ends the machine
(zero on a reliable transport).
-/

namespace SmithsNet.Txn

open Lib

/-- Server non-INVITE machine. -/
structure ServerNonInviteTxn where
  key : TransactionKey
  state : TransactionState
  lastResponse : Option Bytes
  reliable : Bool

namespace ServerNonInviteTxn

/-- A fresh machine for an incoming non-INVITE request. -/
def new (branch method : String) : ServerNonInviteTxn where
  key := { branch, method, role := .server }
  state := .trying
  lastResponse := none
  reliable := false

/-- Emit the final response: Completed and timer J, or straight to Terminated
on a reliable transport. -/
def emitFinal (t : ServerNonInviteTxn) (bytes : Bytes) :
    ServerNonInviteTxn × List TransactionAction :=
  if t.reliable then
    ({ t with lastResponse := some bytes, state := .terminated },
      [.sendToPeer bytes, .terminated])
  else
    ({ t with lastResponse := some bytes, state := .completed },
      [.sendToPeer bytes, .armTimer .J TIMEOUT_64T1])

/-- Replay of the cached response; nothing when none was sent yet. -/
def replay (t : ServerNonInviteTxn) : List TransactionAction :=
  match t.lastResponse with
  | some last => [.sendToPeer last]
  | none => []

/-- One event.  The arms are the source's, in its order. -/
def onEvent (t : ServerNonInviteTxn) (e : TransactionEvent) :
    ServerNonInviteTxn × List TransactionAction :=
  match t.state, e with
  | .trying, .sendResponseFromTu status bytes =>
    if 100 ≤ status ∧ status < 200 then
      ({ t with state := .proceeding, lastResponse := some bytes }, [.sendToPeer bytes])
    else if 200 ≤ status ∧ status < 700 then t.emitFinal bytes
    else (t, [])
  | .proceeding, .sendResponseFromTu status bytes =>
    if 200 ≤ status ∧ status < 700 then t.emitFinal bytes
    else if 100 ≤ status ∧ status < 200 then
      ({ t with lastResponse := some bytes }, [.sendToPeer bytes])
    else (t, [])
  | .proceeding, .requestReceived _ _ | .completed, .requestReceived _ _ => (t, t.replay)
  | .completed, .timerFired .J => ({ t with state := .terminated }, [.terminated])
  | _, _ => (t, [])

instance : Transaction ServerNonInviteTxn where
  key t := t.key
  state t := t.state
  setReliable t reliable := { t with reliable }
  onEvent := onEvent

end ServerNonInviteTxn

end SmithsNet.Txn
