import SmithsNet.Core.Dialog

/-!
# SmithsNet.Raft.StateMachine

The Raft state machine over the shared dialog table
(`smiths-raft/src/state_machine.rs`), with the log entries and snapshots it
exchanges with the Raft library.
-/

namespace SmithsNet.Raft

open Lib SmithsNet.Core

/-! ## log entries -/

/-- The leader that proposed an entry. -/
structure LeaderId where
  term : UInt64
  nodeId : UInt64

/-- Position of an entry in the log. -/
structure LogId where
  leaderId : LeaderId
  index : UInt64

/-- A cluster configuration: voter sets and node addresses. -/
structure Membership where
  configs : List (List UInt64)
  nodes : List (UInt64 × String)

/-- A configuration and the entry that carried it. -/
structure StoredMembership where
  logId : Option LogId := none
  membership : Membership := ⟨[], []⟩

inductive EntryPayload
  | blank
  | normal (delta : DialogDelta)
  | membership (membership : Membership)

/-- The dialog change an entry carries. -/
def EntryPayload.delta? : EntryPayload → Option DialogDelta
  | .normal delta => some delta
  | _ => none

structure Entry where
  logId : LogId
  payload : EntryPayload

/-- The dialog changes a stretch of log carries. -/
def deltas (entries : List Entry) : List DialogDelta := entries.filterMap (·.payload.delta?)

/-! ## snapshots -/

/-- What a snapshot's bytes say. -/
structure SnapshotPayload where
  dialogs : List DialogRecord
  lastAppliedTerm : Option UInt64
  lastAppliedNode : Option UInt64
  lastAppliedIndex : Option UInt64

/-- The JSON library, as far as snapshots use it. -/
structure Json where
  toVec : SnapshotPayload → List UInt8
  fromSlice : List UInt8 → Option SnapshotPayload

structure SnapshotMeta where
  lastLogId : Option LogId
  lastMembership : StoredMembership
  snapshotId : String

/-- A snapshot: what the library needs to know of it, and its bytes. -/
structure Snapshot where
  snapshotMeta : SnapshotMeta
  snapshot : List UInt8

/-! ## the state machine -/

structure DialogStateMachine where
  dialogs : DialogTable
  lastApplied : Option LogId
  lastMembership : StoredMembership
  /-- Cached snapshot. -/
  currentSnapshot : Option Snapshot

/-- Builds a snapshot: holds the metadata of the moment it was made, and shares
the table. -/
structure DialogSnapshotBuilder where
  lastApplied : Option LogId
  lastMembership : StoredMembership

namespace DialogStateMachine

/-- A new state machine sharing the given dialog table. -/
def new (dialogs : DialogTable) : DialogStateMachine where
  dialogs := dialogs
  lastApplied := none
  lastMembership := {}
  currentSnapshot := none

def appliedState (sm : DialogStateMachine) : Option LogId × StoredMembership :=
  (sm.lastApplied, sm.lastMembership)

/-- The loop body of `apply`. -/
def applyEntry (sm : DialogStateMachine) (entry : Entry) : DialogStateMachine :=
  let sm := { sm with lastApplied := some entry.logId }
  match entry.payload with
  | .normal delta => { sm with dialogs := sm.dialogs.apply delta }
  | .membership membership => { sm with lastMembership := ⟨some entry.logId, membership⟩ }
  | .blank => sm

/-- Apply committed entries in order. -/
def apply (sm : DialogStateMachine) (entries : List Entry) : DialogStateMachine :=
  entries.foldl applyEntry sm

def getSnapshotBuilder (sm : DialogStateMachine) : DialogSnapshotBuilder :=
  ⟨sm.lastApplied, sm.lastMembership⟩

/-- Replace everything by a snapshot; bytes that do not parse change nothing. -/
def installSnapshot (json : Json) (sm : DialogStateMachine) (snapshotMeta : SnapshotMeta)
    (snapshot : List UInt8) : Option DialogStateMachine :=
  (json.fromSlice snapshot).map fun payload =>
    { sm with
      dialogs := Keyed.restore payload.dialogs
      lastApplied := snapshotMeta.lastLogId
      lastMembership := snapshotMeta.lastMembership
      currentSnapshot := some ⟨snapshotMeta, snapshot⟩ }

def getCurrentSnapshot (sm : DialogStateMachine) : Option Snapshot := sm.currentSnapshot

end DialogStateMachine

namespace DialogSnapshotBuilder

/-- `snap-<term>-<index>`. -/
def snapshotId (builder : DialogSnapshotBuilder) : String :=
  "snap-" ++ toString ((builder.lastApplied.map (·.leaderId.term)).getD 0) ++ "-" ++
    toString ((builder.lastApplied.map (·.index)).getD 0)

/-- What the builder writes.  It reads the shared table shard by shard while
entries are being applied: `read i` is the table when shard `i` is read. -/
def payload {shards : Nat} (builder : DialogSnapshotBuilder) (shardOf : DialogKey → Fin shards)
    (read : Fin shards → DialogTable) : SnapshotPayload where
  dialogs := Keyed.collect shardOf read
  lastAppliedTerm := builder.lastApplied.map (·.leaderId.term)
  lastAppliedNode := builder.lastApplied.map (·.leaderId.nodeId)
  lastAppliedIndex := builder.lastApplied.map (·.index)

def buildSnapshot {shards : Nat} (json : Json) (builder : DialogSnapshotBuilder)
    (shardOf : DialogKey → Fin shards) (read : Fin shards → DialogTable) : Snapshot where
  snapshotMeta := ⟨builder.lastApplied, builder.lastMembership, builder.snapshotId⟩
  snapshot := json.toVec (builder.payload shardOf read)

end DialogSnapshotBuilder

/-! ## what applying entries does -/

namespace DialogStateMachine

theorem deltas_append (es fs : List Entry) : deltas (es ++ fs) = deltas es ++ deltas fs :=
  List.filterMap_append

section

variable (sm : DialogStateMachine)

theorem apply_append (es fs : List Entry) :
    sm.apply (es ++ fs) = (sm.apply es).apply fs := List.foldl_append

theorem dialogs_applyEntry (e : Entry) :
    (sm.applyEntry e).dialogs = sm.dialogs.applyAll (deltas [e]) := by
  unfold applyEntry deltas
  cases h : e.payload <;> simp [h, EntryPayload.delta?, Keyed.applyAll]

theorem dialogs_apply (es : List Entry) :
    (sm.apply es).dialogs = sm.dialogs.applyAll (deltas es) := by
  induction es generalizing sm with
  | nil => rfl
  | cons e es ih =>
    have htail : sm.apply (e :: es) = (sm.applyEntry e).apply es := rfl
    have hdeltas : deltas (e :: es) = deltas [e] ++ deltas es := deltas_append [e] es
    rw [htail, ih, dialogs_applyEntry, hdeltas, Keyed.applyAll_append]

theorem find_apply (es : List Entry) (k : DialogKey) :
    (sm.apply es).dialogs.find k = (lastFor k (deltas es)).getD (sm.dialogs.find k) := by
  rw [dialogs_apply, Keyed.find_applyAll]

end

/-- What is applied last and the membership do not depend on the table. -/
theorem appliedState_apply {sm sm' : DialogStateMachine} (h : sm.appliedState = sm'.appliedState)
    (es : List Entry) : (sm.apply es).appliedState = (sm'.apply es).appliedState := by
  induction es generalizing sm sm' with
  | nil => exact h
  | cons e es ih =>
    refine ih ?_
    obtain ⟨_, hmem⟩ := Prod.mk.inj h
    unfold applyEntry appliedState
    cases e.payload <;> simp [hmem]

end DialogStateMachine

end SmithsNet.Raft
