import SmithsNet.Txn.Basic

/-!
# SmithsNet.Txn.ClientNonInvite

The client non-INVITE machine (`txn/client_non_invite.rs`, RFC 3261 §17.1.2).
Timer E retransmits, F bounds the wait for a final, K absorbs duplicates of
the final (zero on a reliable transport).
-/

namespace SmithsNet.Txn

open Lib

/-- Client non-INVITE machine. -/
structure ClientNonInviteTxn where
  key : TransactionKey
  state : TransactionState
  request : Bytes
  attempt : Nat
  reliable : Bool

namespace ClientNonInviteTxn

/-- A fresh machine for an outbound request. -/
def new (branch method : String) (request : Bytes) : ClientNonInviteTxn where
  key := { branch, method, role := .client }
  state := .trying
  request := request
  attempt := 0
  reliable := false

/-- Deliver the final, retire E and F, then arm K — or terminate when K is
zero. -/
def enterCompleted (t : ClientNonInviteTxn) (finalBytes : Bytes) (status : Nat) :
    ClientNonInviteTxn × List TransactionAction :=
  ({ t with state := if t.reliable then .terminated else .completed },
    [.deliverResponseToTu status finalBytes, .cancelTimer .E, .cancelTimer .F,
      if t.reliable then .terminated else .armTimer .K T4])

/-- One event; what no arm takes is absorbed silently. -/
def onEvent (t : ClientNonInviteTxn) (e : TransactionEvent) :
    ClientNonInviteTxn × List TransactionAction :=
  match t.state, e with
  | .trying, .startClient =>
    (t, [.sendToPeer t.request] ++ (if t.reliable then [] else [.armTimer .E T1]) ++
      [.armTimer .F TIMEOUT_64T1])
  | .trying, .timerFired .E =>
    let attempt := nextAttempt t.attempt
    ({ t with attempt }, [.sendToPeer t.request, .armTimer .E (doublingBackoff attempt T2)])
  | .trying, .responseReceived status bytes =>
    if 100 ≤ status ∧ status < 200 then
      ({ t with state := .proceeding },
        [.deliverResponseToTu status bytes] ++
          (if t.reliable then [] else [.armTimer .E T2]))
    else if 200 ≤ status ∧ status < 700 then t.enterCompleted bytes status
    else (t, [])
  | .proceeding, .responseReceived status bytes =>
    if 100 ≤ status ∧ status < 200 then (t, [.deliverResponseToTu status bytes])
    else if 200 ≤ status ∧ status < 700 then t.enterCompleted bytes status
    else (t, [])
  | .proceeding, .timerFired .E => (t, [.sendToPeer t.request, .armTimer .E T2])
  | .trying, .timerFired .F | .proceeding, .timerFired .F =>
    ({ t with state := .terminated }, [.cancelTimer .E, .terminated])
  | .completed, .timerFired .K => ({ t with state := .terminated }, [.terminated])
  | _, _ => (t, [])

instance : Transaction ClientNonInviteTxn where
  key t := t.key
  state t := t.state
  setReliable t reliable := { t with reliable }
  onEvent := onEvent

end ClientNonInviteTxn

end SmithsNet.Txn
