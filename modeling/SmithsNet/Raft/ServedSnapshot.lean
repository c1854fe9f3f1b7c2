import SmithsNet.Lib.Mealy
import SmithsNet.Raft.Snapshot

/-!
# SmithsNet.Raft.ServedSnapshot

The snapshot the Raft library gets when it has to bring a node up to date.

`install_snapshot` caches the snapshot it installs and `get_current_snapshot` serves
the cached one.  A builder holds the shared table and the applied ids, not the machine:
what it builds is handed to the library and cached nowhere.  So after a build the
machine serves what was last installed, or nothing: `latest_served_iff`.
-/

namespace SmithsNet.Raft

open Lib SmithsNet.Core DialogStateMachine

/-! ## the order of log ids -/

/-- Log ids compare by term, then by the node that proposed the entry, then by index. -/
def LogId.atLeast (a b : LogId) : Bool :=
  decide (b.leaderId.term < a.leaderId.term) ||
    (decide (b.leaderId.term = a.leaderId.term) &&
      (decide (b.leaderId.nodeId < a.leaderId.nodeId) ||
        (decide (b.leaderId.nodeId = a.leaderId.nodeId) && decide (b.index ≤ a.index))))

/-- No entry comes before every entry. -/
def atLeast : Option LogId → Option LogId → Bool
  | _, none => true
  | none, some _ => false
  | some a, some b => a.atLeast b

theorem atLeast_refl (a : Option LogId) : atLeast a a = true := by
  cases a with
  | none => rfl
  | some a => simp [atLeast, LogId.atLeast]

/-! ## the calls of the library -/

/-- A call of the library on its storage.  The builders it was given are numbered in
the order it asked for them; `read` is what a builder finds in each shard of the table
while it runs. -/
inductive StorageCall (shards : Nat)
  | apply (entries : List Entry)
  | getSnapshotBuilder
  | buildSnapshot (builder : Nat) (read : Fin shards → DialogTable)
  | installSnapshot (snapshotMeta : SnapshotMeta) (snapshot : List UInt8)
  | getCurrentSnapshot

/-- The machine and the builders the library holds. -/
structure Storage where
  machine : DialogStateMachine
  builders : List DialogSnapshotBuilder

/-- Nothing called yet. -/
def Storage.new (dialogs : DialogTable) : Storage := ⟨.new dialogs, []⟩

section

variable (json : Json) {shards : Nat} (shardOf : DialogKey → Fin shards)

/-- One call, with the snapshot it has built or installed. -/
def storageStep : Mealy Storage (StorageCall shards) Snapshot
  | s, .apply entries => ({ s with machine := s.machine.apply entries }, [])
  | s, .getSnapshotBuilder =>
    ({ s with builders := s.builders ++ [s.machine.getSnapshotBuilder] }, [])
  | s, .buildSnapshot i read =>
    match s.builders[i]? with
    | some builder => (s, [builder.buildSnapshot json shardOf read])
    | none => (s, [])
  | s, .installSnapshot snapshotMeta snapshot =>
    match s.machine.installSnapshot json snapshotMeta snapshot with
    | some machine => ({ s with machine := machine }, [⟨snapshotMeta, snapshot⟩])
    | none => (s, [])
  | s, .getCurrentSnapshot => (s, [])

/-- The machine has a snapshot to serve that reaches as far as this one. -/
def Storage.Serves (s : Storage) (latest : Snapshot) : Prop :=
  ∃ served, s.machine.getCurrentSnapshot = some served ∧
    atLeast served.snapshotMeta.lastLogId latest.snapshotMeta.lastLogId = true

/-- After every call of the run that has built or installed a snapshot, one that reaches
as far is served. -/
def LatestServed (s : Storage) (calls : List (StorageCall shards)) : Prop :=
  ∀ before call after, calls = before ++ call :: after →
    ∀ latest ∈ (storageStep json shardOf ((storageStep json shardOf).stateAfter s before) call).2,
      (storageStep json shardOf ((storageStep json shardOf).stateAfter s before) call).1.Serves latest

/-- What a call leaves as the last snapshot installed. -/
def installedBy (last : Option SnapshotMeta) : StorageCall shards → Option SnapshotMeta
  | .installSnapshot snapshotMeta snapshot =>
    if (json.fromSlice snapshot).isSome then some snapshotMeta else last
  | _ => last

/-- The last snapshot installed along the calls. -/
def lastInstalled (calls : List (StorageCall shards)) : Option SnapshotMeta :=
  calls.foldl (installedBy json) none

variable {json shardOf}

theorem storageStep_buildSnapshot (s : Storage) {i : Nat} (read : Fin shards → DialogTable)
    {builder : DialogSnapshotBuilder} (h : s.builders[i]? = some builder) :
    storageStep json shardOf s (.buildSnapshot i read) =
      (s, [builder.buildSnapshot json shardOf read]) := by
  simp only [storageStep, h]

theorem currentSnapshot_apply (sm : DialogStateMachine) (es : List Entry) :
    (sm.apply es).currentSnapshot = sm.currentSnapshot := by
  induction es generalizing sm with
  | nil => rfl
  | cons e es ih =>
    have hentry : (sm.applyEntry e).currentSnapshot = sm.currentSnapshot := by
      unfold applyEntry
      cases e.payload <;> rfl
    exact (ih (sm.applyEntry e)).trans hentry

theorem currentSnapshot_storageStep (s : Storage) (call : StorageCall shards) :
    (storageStep json shardOf s call).1.machine.currentSnapshot.map (·.snapshotMeta) =
      installedBy json (s.machine.currentSnapshot.map (·.snapshotMeta)) call := by
  cases call with
  | apply entries => simp only [storageStep, installedBy, currentSnapshot_apply]
  | getSnapshotBuilder => rfl
  | getCurrentSnapshot => rfl
  | buildSnapshot i read =>
    cases h : s.builders[i]? with
    | some builder => rw [storageStep_buildSnapshot s read h]; rfl
    | none => simp only [storageStep, h, installedBy]
  | installSnapshot snapshotMeta snapshot =>
    cases h : json.fromSlice snapshot <;> simp [storageStep, installSnapshot, installedBy, h]

theorem currentSnapshot_stateAfter (s : Storage) (calls : List (StorageCall shards)) :
    ((storageStep json shardOf).stateAfter s calls).machine.currentSnapshot.map (·.snapshotMeta) =
      calls.foldl (installedBy json) (s.machine.currentSnapshot.map (·.snapshotMeta)) := by
  induction calls generalizing s with
  | nil => rfl
  | cons call calls ih =>
    rw [Mealy.stateAfter, ih, currentSnapshot_storageStep]
    rfl

theorem currentSnapshot_new (dialogs : DialogTable) (calls : List (StorageCall shards)) :
    ((storageStep json shardOf).stateAfter (.new dialogs) calls).machine.currentSnapshot.map
      (·.snapshotMeta) = lastInstalled json calls :=
  currentSnapshot_stateAfter (Storage.new dialogs) calls

theorem Storage.serves_iff (s : Storage) (latest : Snapshot) :
    s.Serves latest ↔ ∃ served, s.machine.currentSnapshot.map (·.snapshotMeta) = some served ∧
      atLeast served.lastLogId latest.snapshotMeta.lastLogId = true := by
  simp [Serves, getCurrentSnapshot]

theorem serves_installSnapshot (s : Storage) (snapshotMeta : SnapshotMeta) (snapshot : List UInt8) :
    ∀ latest ∈ (storageStep json shardOf s (.installSnapshot snapshotMeta snapshot)).2,
      (storageStep json shardOf s (.installSnapshot snapshotMeta snapshot)).1.Serves latest := by
  cases h : json.fromSlice snapshot with
  | none => simp [storageStep, installSnapshot, h]
  | some payload =>
    simp only [storageStep, installSnapshot, h, Option.map_some, List.mem_singleton, forall_eq]
    exact ⟨⟨snapshotMeta, snapshot⟩, rfl, atLeast_refl _⟩

end

/-- **The latest snapshot is served.**  Along any run of calls on a new machine, every
snapshot just built or installed is matched by the one served exactly when each build
comes after an installation, the last of them of a snapshot that reaches as far as what
had been applied when the builder was made. -/
theorem latest_served_iff (json : Json) {shards : Nat} (shardOf : DialogKey → Fin shards)
    (dialogs : DialogTable) (calls : List (StorageCall shards)) :
    LatestServed json shardOf (.new dialogs) calls ↔
      ∀ before i read after builder, calls = before ++ .buildSnapshot i read :: after →
        ((storageStep json shardOf).stateAfter (.new dialogs) before).builders[i]? = some builder →
          ∃ installed, lastInstalled json before = some installed ∧
            atLeast installed.lastLogId builder.lastApplied = true := by
  constructor
  · intro h before i read after builder hcalls hbuilder
    have hstep : storageStep json shardOf _ (.buildSnapshot i read) = _ :=
      storageStep_buildSnapshot _ read hbuilder
    have hserves := h before _ after hcalls
    rw [hstep] at hserves
    have hbuilt := hserves _ (List.mem_singleton_self _)
    rw [Storage.serves_iff, currentSnapshot_new] at hbuilt
    exact hbuilt
  · intro h before call after hcalls
    cases call with
    | installSnapshot snapshotMeta snapshot => exact serves_installSnapshot _ snapshotMeta snapshot
    | buildSnapshot i read =>
      cases hbuilder : ((storageStep json shardOf).stateAfter (.new dialogs) before).builders[i]? with
      | none =>
        simp only [storageStep, hbuilder]
        exact fun latest hlatest => absurd hlatest List.not_mem_nil
      | some builder =>
        rw [storageStep_buildSnapshot _ read hbuilder]
        intro latest hlatest
        rw [List.mem_singleton.mp hlatest, Storage.serves_iff, currentSnapshot_new]
        exact h before i read after builder hcalls hbuilder
    | _ => exact fun latest hlatest => absurd hlatest List.not_mem_nil

/-- An entry is applied and a snapshot of it built: the machine serves none. -/
theorem built_not_served :
    ¬ ∀ (json : Json) (shards : Nat) (shardOf : DialogKey → Fin shards) (dialogs : DialogTable)
      (calls : List (StorageCall shards)), LatestServed json shardOf (.new dialogs) calls := by
  intro h
  obtain ⟨served, hserved, _⟩ := h sampleJson 4 sampleShard .empty
    [.apply [sampleEntry 1 "call-1"], .getSnapshotBuilder, .buildSnapshot 0 fun _ => .empty]
    [.apply [sampleEntry 1 "call-1"], .getSnapshotBuilder] (.buildSnapshot 0 fun _ => .empty) []
    rfl _ (List.mem_singleton_self _)
  exact absurd hserved (by simp [storageStep, Mealy.stateAfter, Storage.new, getCurrentSnapshot,
    currentSnapshot_apply, DialogStateMachine.new])

end SmithsNet.Raft
