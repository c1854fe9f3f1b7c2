import Mathlib
import SmithsNet.Lib.Sorted
import SmithsNet.Raft.StateMachine

/-!
# SmithsNet.Raft.LogStore

The SQLite log store (`smiths-raft/src/log_store.rs`) and the Raft log it is a
store for.

The table `raft_logs` is kept in the order of its primary key, a signed 64-bit
integer; log indices and terms are cast to it and back.  Of `raft_state` only
the row of the key `vote` exists.  `save_committed` is the Raft library's
default, which stores nothing.
-/

namespace SmithsNet.Raft

open Lib

/-! ## 64-bit casts -/

/-- `u64::cast_signed`. -/
def castSigned (v : UInt64) : Int := if v.toNat < 2 ^ 63 then v.toNat else v.toNat - 2 ^ 64

/-- `i64::cast_unsigned`. -/
def castUnsigned (i : Int) : UInt64 := UInt64.ofNat (i % 2 ^ 64).toNat

/-- `i64` addition wraps around in release builds. -/
def wrapSigned (i : Int) : Int := (i + 2 ^ 63) % 2 ^ 64 - 2 ^ 63

theorem castUnsigned_castSigned (v : UInt64) : castUnsigned (castSigned v) = v := by
  have hlt := v.toNat_lt
  have hmod : castSigned v % 2 ^ 64 = v.toNat := by
    unfold castSigned
    split <;> omega
  unfold castUnsigned
  rw [hmod, Int.toNat_natCast, UInt64.ofNat_toNat]

theorem castSigned_of_lt {v : UInt64} (h : v.toNat < 2 ^ 63) : castSigned v = v.toNat := if_pos h

/-! ## the store -/

/-- A row of `raft_logs`. -/
structure LogRow where
  logIndex : Int
  term : Int
  payload : List UInt8

/-- A vote of this node. -/
structure Vote where
  leaderId : LeaderId
  committed : Bool

/-- The JSON library, as far as the store uses it. -/
structure StoreJson where
  entryToVec : Entry → List UInt8
  entryFromSlice : List UInt8 → Option Entry
  voteToVec : Vote → List UInt8

/-- The database. -/
structure SqliteLogStore where
  /-- Value of the key `vote` in `raft_state`. -/
  vote : Option (List UInt8)
  raftLogs : Sorted LogRow.logIndex

inductive Bound
  | included (v : UInt64)
  | excluded (v : UInt64)
  | unbounded

/-- A range of log indices. -/
structure LogRange where
  startBound : Bound
  endBound : Bound

/-- What the Raft library asks a store for when it starts. -/
structure LogState where
  lastPurgedLogId : Option LogId
  lastLogId : Option LogId

/-- The row of an entry. -/
def StoreJson.rowOf (json : StoreJson) (entry : Entry) : LogRow where
  logIndex := castSigned entry.logId.index
  term := castSigned entry.logId.leaderId.term
  payload := json.entryToVec entry

/-- `log_index >= start` -/
def Bound.afterStart : Bound → Int → Bool
  | .included v, i => decide (castSigned v ≤ i)
  | .excluded v, i => decide (wrapSigned (castSigned v + 1) ≤ i)
  | .unbounded, i => decide (0 ≤ i)

/-- `end_clause` -/
def Bound.beforeEnd : Bound → Int → Bool
  | .included v, i => decide (i ≤ castSigned v)
  | .excluded v, i => decide (i < castSigned v)
  | .unbounded, _ => true

/-- The `WHERE` condition of `try_get_log_entries`. -/
def LogRange.selects (range : LogRange) (i : Int) : Bool :=
  range.startBound.afterStart i && range.endBound.beforeEnd i

namespace SqliteLogStore

/-- Open a database file, creating the tables it does not have. -/
def new (file : Option SqliteLogStore) : SqliteLogStore := file.getD ⟨none, .empty⟩

/-- The last persisted log id. -/
def lastLogIdFromDb (store : SqliteLogStore) : Option LogId :=
  store.raftLogs.last.map fun row => ⟨⟨castUnsigned row.term, 0⟩, castUnsigned row.logIndex⟩

/-- The entries of a range; `none` when a row does not parse (a panic). -/
def tryGetLogEntries (json : StoreJson) (store : SqliteLogStore) (range : LogRange) :
    Option (List Entry) :=
  (store.raftLogs.keep fun row => range.selects row.logIndex).rows.mapM fun row =>
    json.entryFromSlice row.payload

def getLogState (store : SqliteLogStore) : LogState where
  lastPurgedLogId := none
  lastLogId := store.lastLogIdFromDb

def saveVote (json : StoreJson) (store : SqliteLogStore) (vote : Vote) : SqliteLogStore :=
  { store with vote := some (json.voteToVec vote) }

def append (json : StoreJson) (store : SqliteLogStore) (entries : List Entry) : SqliteLogStore :=
  { store with
    raftLogs := entries.foldl (fun rows entry => rows.put (json.rowOf entry)) store.raftLogs }

def truncate (store : SqliteLogStore) (logId : LogId) : SqliteLogStore :=
  { store with
    raftLogs := store.raftLogs.keep fun row => !decide (castSigned logId.index ≤ row.logIndex) }

def purge (store : SqliteLogStore) (logId : LogId) : SqliteLogStore :=
  { store with
    raftLogs := store.raftLogs.keep fun row => !decide (row.logIndex ≤ castSigned logId.index) }

end SqliteLogStore

/-- What is done to a store over time. -/
inductive LogOp
  | append (entries : List Entry)
  | truncate (logId : LogId)
  | purge (logId : LogId)
  | saveVote (vote : Vote)
  | saveCommitted (committed : Option LogId)
  | reopen

def SqliteLogStore.step (json : StoreJson) (store : SqliteLogStore) : LogOp → SqliteLogStore
  | .append entries => store.append json entries
  | .truncate logId => store.truncate logId
  | .purge logId => store.purge logId
  | .saveVote vote => store.saveVote json vote
  | .saveCommitted _ => store
  | .reopen => .new (some store)

/-- A new store after these operations. -/
def SqliteLogStore.run (json : StoreJson) (ops : List LogOp) : SqliteLogStore :=
  ops.foldl (SqliteLogStore.step json) (.new none)

/-! ## the abstract log -/

/-- A Raft log: the entry at each index, and how far it has been purged. -/
structure RaftLog where
  entries : UInt64 → Option Entry
  lastPurged : Option LogId

/-- The index is not before a range that starts here. -/
def Bound.After : Bound → UInt64 → Prop
  | .included v, i => v ≤ i
  | .excluded v, i => v < i
  | .unbounded, _ => True

/-- The index is not after a range that ends here. -/
def Bound.Before : Bound → UInt64 → Prop
  | .included v, i => i ≤ v
  | .excluded v, i => i < v
  | .unbounded, _ => True

/-- The index is in the range. -/
def LogRange.Contains (range : LogRange) (i : UInt64) : Prop :=
  range.startBound.After i ∧ range.endBound.Before i

namespace RaftLog

def empty : RaftLog := ⟨fun _ => none, none⟩

/-- Write one entry. -/
def write (log : RaftLog) (entry : Entry) : RaftLog :=
  { log with entries := Function.update log.entries entry.logId.index (some entry) }

def step (log : RaftLog) : LogOp → RaftLog
  | .append entries => entries.foldl write log
  | .truncate logId =>
    { log with entries := fun i => if logId.index ≤ i then none else log.entries i }
  | .purge logId =>
    ⟨fun i => if i ≤ logId.index then none else log.entries i, some logId⟩
  | .saveVote _ | .saveCommitted _ | .reopen => log

/-- An empty log after these operations. -/
def run (ops : List LogOp) : RaftLog := ops.foldl step empty

/-- The entry with the greatest index. -/
def IsLast (log : RaftLog) (entry : Entry) : Prop :=
  log.entries entry.logId.index = some entry ∧
    ∀ i e, log.entries i = some e → i ≤ entry.logId.index

/-- The id of the last entry or, in an empty log, of the last purged one. -/
def IsLastLogId (log : RaftLog) (logId : Option LogId) : Prop :=
  (∃ entry, log.IsLast entry ∧ logId = some entry.logId) ∨
    (∀ i, log.entries i = none) ∧ logId = log.lastPurged

/-- Exactly the entries of a range, in the order of their indices. -/
def IsSlice (log : RaftLog) (range : LogRange) (entries : List Entry) : Prop :=
  (entries.Pairwise fun a b => a.logId.index < b.logId.index) ∧
    ∀ e, e ∈ entries ↔ log.entries e.logId.index = some e ∧ range.Contains e.logId.index

end RaftLog

/-- The store answers as the log would. -/
def Refines (json : StoreJson) (store : SqliteLogStore) (log : RaftLog) (range : LogRange) : Prop :=
  log.IsLastLogId store.getLogState.lastLogId ∧
    store.getLogState.lastPurgedLogId = log.lastPurged ∧
    ∃ entries, store.tryGetLogEntries json range = some entries ∧ log.IsSlice range entries

end SmithsNet.Raft
