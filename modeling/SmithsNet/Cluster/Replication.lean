import SmithsNet.Lib.Exec
import SmithsNet.Core.Dialog

/-!
# SmithsNet.Cluster.Replication

Dialog replication from a primary to a secondary
(`smiths-cli/src/replication_service.rs`): the handlers that change the
primary's dialog table and hand each change to `PrimaryReplicator::replicate`,
the bounded queue with its resync flag, the send loop `run_primary_service`,
the connection, and the secondary's `apply_frame`.

The parts run concurrently.  Each action is one atomic access to what they
share: one change of the table, one `try_send`, one store or load of the flag,
one table shard read, one frame written or applied.  `exec` runs a schedule of
them.
-/

namespace SmithsNet.Cluster

open Lib SmithsNet.Core

/-! ## frames -/

/-- One line on the replication wire. -/
inductive ReplFrame
  /-- Full dialog table; the receiver replaces its own. -/
  | snapshot (records : List DialogRecord)
  /-- One incremental change. -/
  | delta (delta : DialogDelta)
  /-- Liveness ping. -/
  | heartbeat
  deriving DecidableEq

/-- What the secondary does with a frame. -/
def applyFrame (dialogs : DialogTable) : ReplFrame → DialogTable
  | .snapshot records => Keyed.restore records
  | .delta delta => dialogs.apply delta
  | .heartbeat => dialogs

/-- Depth of the primary's delta queue. -/
def replicationQueueDepth : Nat := 1024

/-- What does not change while the service runs: the depth of the queue, how
the concurrent map spreads its keys over shards, and what the secondary's JSON
parser makes of the line written for a frame. -/
structure Deployment where
  depth : Nat
  shards : Nat
  shardOf : DialogKey → Fin shards
  parse : ReplFrame → Option ReplFrame

/-! ## the parties -/

/-- Where the send loop stands.  `held` is the delta that was received before
the snapshot was begun and is written after it. -/
inductive Sender
  /-- No secondary is connected. -/
  | waiting
  /-- The service has returned. -/
  | stopped
  /-- Connected, in `select!`. -/
  | idle
  /-- About to look at the resync flag. -/
  | received (delta : DialogDelta)
  /-- In `send_snapshot`, about to clear the resync flag. -/
  | clearing (held : Option DialogDelta)
  /-- In `send_snapshot`, the shards before `shard` have been read. -/
  | reading (held : Option DialogDelta) (shard : Nat) (records : List DialogRecord)
  /-- About to write a frame. -/
  | writing (frame : ReplFrame) (held : Option DialogDelta)
  deriving DecidableEq

/-- The two nodes and the connection between them. -/
structure Replication where
  /-- The primary's dialog table. -/
  dialogs : DialogTable
  /-- Changes of the table whose delta has not been handed over yet, in the
  order in which they were made. -/
  changes : List DialogDelta
  /-- Dialogs whose delta was refused, with the resync flag still to be raised. -/
  drops : List DialogKey
  queue : List DialogDelta
  resyncNeeded : Bool
  sender : Sender
  /-- The frames in flight; `none` when the secondary has no connection. -/
  wire : Option (List ReplFrame)
  /-- The secondary's dialog table. -/
  secondary : DialogTable

/-- Both nodes have just started, with any tables. -/
def Replication.start (dialogs secondary : DialogTable) : Replication where
  dialogs := dialogs
  changes := []
  drops := []
  queue := []
  resyncNeeded := false
  sender := .waiting
  wire := none
  secondary := secondary

/-! ## the steps -/

/-- One atomic step of one of the parties. -/
inductive Action
  /-- A handler inserts, updates or removes a record. -/
  | change (delta : DialogDelta)
  /-- The handler of the `i`-th open change calls `replicate`: the `try_send`. -/
  | replicate (i : Nat)
  /-- The rest of `replicate` for a refused delta: the flag is raised. -/
  | raise (i : Nat)
  /-- A delta that arrives while no secondary is connected is consumed. -/
  | discard
  /-- The secondary dials and is accepted. -/
  | accept
  /-- The service is cancelled. -/
  | cancel
  /-- The send loop takes a delta from the queue. -/
  | recv
  /-- It looks at the resync flag with the delta in hand. -/
  | look
  /-- The heartbeat timer fires. -/
  | beat
  /-- `send_snapshot` clears the flag. -/
  | clear
  /-- `send_snapshot` reads the next shard, or is done with the last. -/
  | read
  /-- A frame has been written. -/
  | write
  /-- Writing a frame failed; it may have reached the connection all the same. -/
  | fail (landed : Bool)
  /-- The secondary applies the next frame. -/
  | deliver
  /-- The secondary gives the connection up. -/
  | hangUp

namespace Replication

/-- `try_send` finds room. -/
def hasRoom (d : Deployment) (s : Replication) : Prop :=
  s.sender ≠ .stopped ∧ s.queue.length < d.depth

instance (d : Deployment) (s : Replication) : Decidable (s.hasRoom d) :=
  inferInstanceAs (Decidable (_ ∧ _))

/-- What the secondary does with a line; one it cannot parse is skipped. -/
def readLine (d : Deployment) (s : Replication) (frame : ReplFrame) : DialogTable :=
  match d.parse frame with
  | some frame => applyFrame s.secondary frame
  | none => s.secondary

/-- The connection with one more frame in flight. -/
def sent (s : Replication) (frame : ReplFrame) : Option (List ReplFrame) :=
  s.wire.map (· ++ [frame])

/-- What follows a frame: the delta held back, or the next `select!`. -/
def resume : Option DialogDelta → Sender
  | some delta => .writing (.delta delta) none
  | none => .idle

/-- Carry out an action; `none` when it is not possible. -/
def step (d : Deployment) (s : Replication) : Action → Option Replication
  | .change delta =>
    some { s with dialogs := s.dialogs.apply delta, changes := s.changes ++ [delta] }
  | .replicate i =>
    match s.changes[i]? with
    | none => none
    | some delta =>
      if s.hasRoom d then
        some { s with changes := s.changes.eraseIdx i, queue := s.queue ++ [delta] }
      else some { s with changes := s.changes.eraseIdx i, drops := s.drops ++ [delta.key] }
  | .raise i =>
    if i < s.drops.length then
      some { s with drops := s.drops.eraseIdx i, resyncNeeded := true }
    else none
  | .discard =>
    match s.sender, s.queue with
    | .waiting, _ :: queue => some { s with queue := queue }
    | _, _ => none
  | .accept =>
    match s.sender, s.wire with
    | .waiting, none => some { s with sender := .clearing none, wire := some [] }
    | _, _ => none
  | .cancel =>
    match s.sender with
    | .waiting | .idle => some { s with sender := .stopped, queue := [] }
    | _ => none
  | .recv =>
    match s.sender, s.queue with
    | .idle, delta :: queue => some { s with sender := .received delta, queue := queue }
    | _, _ => none
  | .look =>
    match s.sender with
    | .received delta =>
      some { s with
        sender := if s.resyncNeeded then .clearing (some delta) else .writing (.delta delta) none }
    | _ => none
  | .beat =>
    match s.sender with
    | .idle =>
      some { s with
        sender := if s.resyncNeeded then .clearing none else .writing .heartbeat none }
    | _ => none
  | .clear =>
    match s.sender with
    | .clearing held => some { s with sender := .reading held 0 [], resyncNeeded := false }
    | _ => none
  | .read =>
    match s.sender with
    | .reading held shard records =>
      if shard < d.shards then
        some { s with
          sender := .reading held (shard + 1)
            (records ++ s.dialogs.values fun k => decide ((d.shardOf k).val = shard)) }
      else some { s with sender := .writing (.snapshot records) held }
    | _ => none
  | .write =>
    match s.sender with
    | .writing frame held => some { s with sender := resume held, wire := s.sent frame }
    | _ => none
  | .fail landed =>
    match s.sender with
    | .writing frame _ =>
      some { s with
        sender := .waiting, resyncNeeded := true, wire := if landed then s.sent frame else s.wire }
    | _ => none
  | .deliver =>
    match s.wire with
    | some (frame :: frames) =>
      some { s with secondary := s.readLine d frame, wire := some frames }
    | _ => none
  | .hangUp =>
    match s.wire with
    | some _ => some { s with wire := none }
    | none => none

/-! ## what is asked of it -/

/-- Nothing is left to do: every change has been handed over, the queue is
drained, the flag is clear, and the send loop waits on a live connection with
no frame in flight. -/
def Quiescent (s : Replication) : Prop :=
  s.changes = [] ∧ s.drops = [] ∧ s.queue = [] ∧ s.resyncNeeded = false ∧
    s.sender = .idle ∧ s.wire = some []

instance (s : Replication) : Decidable s.Quiescent :=
  inferInstanceAs (Decidable (_ ∧ _ ∧ _ ∧ _ ∧ _ ∧ _))

/-- The two tables are equal, dialog by dialog. -/
def Converged (s : Replication) : Prop := ∀ k, s.secondary.find k = s.dialogs.find k

end Replication

/-- The delta in the sender's hand for which the flag has not been cleared
yet: a snapshot that is begun from here does not make it old. -/
def Sender.early : Sender → List DialogDelta
  | .received delta => [delta]
  | .clearing held => held.toList
  | _ => []

/-- The steps that do not disturb a dialog's changes: its deltas are handed
over in the order in which its record was changed, a delta is not refused while
an older one of the same dialog is on its way, and a line is read back as the
frame it was written for. -/
def Undisturbed (d : Deployment) (s : Replication) : Action → Prop
  | .replicate i =>
    ∀ delta ∈ s.changes[i]?, (∀ c ∈ s.changes.take i, c.key ≠ delta.key) ∧
      (¬ s.hasRoom d → ∀ c ∈ s.sender.early ++ s.queue, c.key ≠ delta.key)
  | .deliver => ∀ frame ∈ s.wire.bind List.head?, d.parse frame = some frame
  | _ => True

instance (d : Deployment) (s : Replication) : ∀ a, Decidable (Undisturbed d s a)
  | .replicate i => inferInstanceAs (Decidable (∀ delta ∈ s.changes[i]?, _ ∧ _))
  | .deliver => inferInstanceAs (Decidable (∀ frame ∈ s.wire.bind List.head?, _ = _))
  | .change _ | .raise _ | .discard | .accept | .cancel | .recv | .look | .beat | .clear | .read
  | .write | .fail _ | .hangUp => isTrue trivial

end SmithsNet.Cluster
