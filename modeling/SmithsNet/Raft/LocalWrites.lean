import SmithsNet.Lib.Exec
import SmithsNet.Raft.StateMachine

/-!
# SmithsNet.Raft.LocalWrites

One Raft node and its dialog table, which has two writers: the SIP handlers,
which change a record and then hand the change to `RaftReplicator::replicate`
(`smiths-raft/src/node.rs`), and the state machine, which applies the entries
of the log, this node's own changes among them.

Each action is one atomic access to what the writers share.  `versions` is not
in the program: it records what the handlers have left of each dialog.
-/

namespace SmithsNet.Raft

open Lib SmithsNet.Core

/-! ## what handlers do to a record -/

/-- What of an in-dialog request goes into the record. -/
structure RequestSummary where
  method : String
  branch : Option String
  cseq : Option UInt32

/-- What of an accepted offer goes into the record. -/
structure AcceptedOffer where
  remoteMedia : Option SocketAddr
  audioCodec : Option NegotiatedCodec
  videoCodec : Option NegotiatedCodec
  ice : Option IceParams

/-- Outcome of offer and answer for an in-dialog request. -/
structure Renegotiation where
  offer : Option AcceptedOffer
  /-- Endpoint allocated for a dialog that started without media. -/
  newEndpoint : Option (UInt64 × SocketAddr)

/-- `commit_in_dialog_update`: an accepted re-INVITE or UPDATE. -/
def commitInDialogUpdate (req : RequestSummary) (renegotiation : Renegotiation)
    (timer : Option UInt32) (entry : DialogRecord) : DialogRecord :=
  let entry := { entry with remoteCseq := req.cseq }
  let entry :=
    if req.method = "INVITE" then { entry with lastInviteBranch := req.branch } else entry
  let entry := { entry with sessionExpiresSecs := timer }
  let entry :=
    match renegotiation.newEndpoint with
    | some (id, localAddr) => { entry with media := some id, localMedia := some localAddr }
    | none => entry
  match renegotiation.offer with
  | some offer =>
    { entry with
      remoteMedia := offer.remoteMedia
      ice := offer.ice
      perLegCodec := (offer.audioCodec.map (0, ·)).toList ++ (offer.videoCodec.map (1, ·)).toList }
  | none => entry

/-- The dialog part of `handle_ack`. -/
def handleAck (entry : DialogRecord) : DialogRecord :=
  { entry with pending2xx := none, state := .confirmed }

/-- A 2xx to an INVITE is kept for retransmission. -/
def parkFinal (bytes : List UInt8) (entry : DialogRecord) : DialogRecord :=
  { entry with pending2xx := some bytes }

/-- A change a handler makes. -/
inductive LocalChange
  | create (record : DialogRecord)
  | inDialog (key : DialogKey) (req : RequestSummary) (renegotiation : Renegotiation)
      (timer : Option UInt32)
  | ack (key : DialogKey)
  | park (key : DialogKey) (bytes : List UInt8)
  | teardown (key : DialogKey)

namespace LocalChange

/-- The dialog it is about. -/
def key : LocalChange → DialogKey
  | create record => record.key
  | inDialog key .. | ack key | park key _ | teardown key => key

/-- Read, modify, write: the delta to be carried out and handed over, or
nothing when there is no such dialog. -/
def delta (dialogs : DialogTable) : LocalChange → Option DialogDelta
  | create record => some (.upsert record)
  | inDialog key req renegotiation timer =>
    (dialogs.find key).map fun entry => .upsert (commitInDialogUpdate req renegotiation timer entry)
  | ack key => (dialogs.find key).map fun entry => .upsert (handleAck entry)
  | park key bytes => (dialogs.find key).map fun entry => .upsert (parkFinal bytes entry)
  | teardown key => (dialogs.find key).map fun _ => .delete key

end LocalChange

/-! ## the node -/

/-- Deltas buffered in front of `client_write`. -/
def writeQueueDepth : Nat := 1024

/-- The task that drains the write queue. -/
inductive Proposer
  | idle
  /-- About to call `client_write`. -/
  | holding (delta : DialogDelta)
  /-- `client_write` has not returned yet. -/
  | waiting
  | stopped
  deriving DecidableEq

/-- The delta in the proposer's hand. -/
def Proposer.held : Proposer → List DialogDelta
  | .holding delta => [delta]
  | _ => []

structure Node where
  machine : DialogStateMachine
  /-- What handlers have left of each dialog, newest first. -/
  versions : DialogKey → List (Option DialogRecord)
  /-- Changes of the table whose delta has not been handed over yet. -/
  changes : List DialogDelta
  queue : List DialogDelta
  proposer : Proposer
  /-- Entries of the log that have not been applied here. -/
  unapplied : List Entry

/-- A node with any state machine, before the first request. -/
def Node.start (machine : DialogStateMachine) : Node where
  machine := machine
  versions _ := []
  changes := []
  queue := []
  proposer := .idle
  unapplied := []

inductive NodeAction
  /-- A handler changes a record. -/
  | change (change : LocalChange)
  /-- The handler of the `i`-th open change calls `replicate`. -/
  | replicate (i : Nat)
  /-- The proposer takes a delta from the queue. -/
  | recv
  /-- This node is the leader: `client_write` appends an entry. -/
  | append (logId : LogId)
  /-- `client_write` is rejected at once. -/
  | reject
  /-- `client_write` returns. -/
  | returned
  /-- An entry of another origin is appended to the log. -/
  | foreign (entry : Entry)
  /-- A new leader overwrites the log behind the next `n` entries. -/
  | overwrite (n : Nat)
  /-- The state machine applies the next entry. -/
  | apply
  | cancel

namespace Node

/-- `try_send` finds room. -/
def hasRoom (depth : Nat) (s : Node) : Prop := s.proposer ≠ .stopped ∧ s.queue.length < depth

instance (depth : Nat) (s : Node) : Decidable (s.hasRoom depth) :=
  inferInstanceAs (Decidable (_ ∧ _))

/-- The record is changed under its lock, and the delta is still to be handed over. -/
def commit (s : Node) (delta : DialogDelta) : Node :=
  { s with
    machine := { s.machine with dialogs := s.machine.dialogs.apply delta }
    versions := Function.update s.versions delta.key (delta.value :: s.versions delta.key)
    changes := s.changes ++ [delta] }

/-- Carry out an action; `none` when it is not possible. -/
def step (depth : Nat) (s : Node) : NodeAction → Option Node
  | .change c =>
    match c.delta s.machine.dialogs with
    | some delta => some (s.commit delta)
    | none => some s
  | .replicate i =>
    match s.changes[i]? with
    | none => none
    | some delta =>
      if s.hasRoom depth then
        some { s with changes := s.changes.eraseIdx i, queue := s.queue ++ [delta] }
      else some { s with changes := s.changes.eraseIdx i }
  | .recv =>
    match s.proposer, s.queue with
    | .idle, delta :: queue => some { s with proposer := .holding delta, queue := queue }
    | _, _ => none
  | .append logId =>
    match s.proposer with
    | .holding delta =>
      some { s with
        proposer := .waiting, unapplied := s.unapplied ++ [⟨logId, .normal delta⟩] }
    | _ => none
  | .reject =>
    match s.proposer with
    | .holding _ => some { s with proposer := .idle }
    | _ => none
  | .returned =>
    match s.proposer with
    | .waiting => some { s with proposer := .idle }
    | _ => none
  | .foreign entry => some { s with unapplied := s.unapplied ++ [entry] }
  | .overwrite n => some { s with unapplied := s.unapplied.take n }
  | .apply =>
    match s.unapplied with
    | entry :: entries =>
      some { s with machine := s.machine.applyEntry entry, unapplied := entries }
    | [] => none
  | .cancel =>
    match s.proposer with
    | .idle => some { s with proposer := .stopped, queue := [] }
    | _ => none

/-! ## what is asked of it -/

/-- The deltas of this node, or of others, that may still be applied. -/
def outstanding (s : Node) : List DialogDelta :=
  s.changes ++ (s.queue ++ (s.proposer.held ++ deltas s.unapplied))

/-- Once every delta has been applied the table holds the last local version
of each dialog, and at no time does it hold an earlier one. -/
def NoLostUpdate (s : Node) : Prop :=
  ∀ k last older, s.versions k = last :: older →
    (s.outstanding = [] → s.machine.dialogs.find k = last) ∧
      (s.machine.dialogs.find k ∈ older → s.machine.dialogs.find k = last)

end Node

/-- A dialog is changed only when no delta of it is outstanding, and others do
not change the dialogs of this node. -/
def OneAtATime (s : Node) : NodeAction → Prop
  | .change c => ∀ delta ∈ s.outstanding, delta.key ≠ c.key
  | .foreign entry => ∀ delta ∈ entry.payload.delta?, s.versions delta.key = []
  | _ => True

instance (s : Node) : ∀ a, Decidable (OneAtATime s a)
  | .change _ => inferInstanceAs (Decidable (∀ _ ∈ _, _))
  | .foreign _ => inferInstanceAs (Decidable (∀ _ ∈ _, _))
  | .replicate _ | .recv | .append _ | .reject | .returned | .overwrite _ | .apply | .cancel =>
    isTrue trivial

end SmithsNet.Raft
