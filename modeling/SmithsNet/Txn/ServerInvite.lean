import SmithsNet.Txn.Basic

/-!
# SmithsNet.Txn.ServerInvite

The server INVITE machine (`txn/server_invite.rs`, RFC 3261 §17.2.1).  A 2xx
from the Transaction User terminates it at once (the dialog layer retransmits
2xx finals); a non-2xx final is repeated on timer G until the ACK comes or
timer H gives up, and timer I absorbs late ACKs.
-/

namespace SmithsNet.Txn

open Lib

/-- Server INVITE machine. -/
structure ServerInviteTxn where
  key : TransactionKey
  state : TransactionState
  lastResponse : Option Bytes
  gAttempt : Nat
  reliable : Bool

namespace ServerInviteTxn

/-- A fresh machine for an incoming INVITE. -/
def new (branch : String) : ServerInviteTxn where
  key := { branch, method := "INVITE", role := .server }
  state := .proceeding
  lastResponse := none
  gAttempt := 0
  reliable := false

/-- Replay of the cached response; nothing when none was sent yet. -/
def replay (t : ServerInviteTxn) : List TransactionAction :=
  match t.lastResponse with
  | some last => [.sendToPeer last]
  | none => []

/-- One event.  The arms are the source's, in its order. -/
def onEvent (t : ServerInviteTxn) (e : TransactionEvent) :
    ServerInviteTxn × List TransactionAction :=
  match t.state, e with
  | .proceeding, .sendResponseFromTu status bytes =>
    if 100 ≤ status ∧ status < 200 then
      ({ t with lastResponse := some bytes }, [.sendToPeer bytes])
    else if 200 ≤ status ∧ status < 300 then
      ({ t with state := .terminated }, [.sendToPeer bytes, .terminated])
    else if 300 ≤ status ∧ status < 700 then
      ({ t with state := .completed, lastResponse := some bytes },
        [.sendToPeer bytes] ++ (if t.reliable then [] else [.armTimer .G T1]) ++
          [.armTimer .H TIMEOUT_64T1])
    else (t, [])
  | .proceeding, .requestReceived method _ =>
    if method = "INVITE" then (t, t.replay) else (t, [])
  | .completed, .timerFired .G =>
    let gAttempt := nextAttempt t.gAttempt
    match t.lastResponse with
    | some last =>
      ({ t with gAttempt }, [.sendToPeer last, .armTimer .G (doublingBackoff gAttempt T2)])
    | none => ({ t with gAttempt }, [])
  | .completed, .requestReceived method _ =>
    if method = "INVITE" then (t, t.replay)
    else if method = "ACK" then
      ({ t with state := if t.reliable then .terminated else .confirmed },
        [.cancelTimer .G, .cancelTimer .H] ++
          [if t.reliable then .terminated else .armTimer .I T4])
    else (t, [])
  | .completed, .timerFired .H =>
    ({ t with state := .terminated }, [.cancelTimer .G, .terminated])
  | .confirmed, .timerFired .I => ({ t with state := .terminated }, [.terminated])
  | _, _ => (t, [])

instance : Transaction ServerInviteTxn where
  key t := t.key
  state t := t.state
  setReliable t reliable := { t with reliable }
  onEvent := onEvent

end ServerInviteTxn

end SmithsNet.Txn
