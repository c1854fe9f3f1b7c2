import SmithsNet.Raft.StateMachine

/-!
# SmithsNet.Raft.Snapshot

Snapshots against replay of the log.

`get_snapshot_builder` fixes the last applied log id and the membership, but
`build_snapshot` reads the shared table later, when more entries may have been
applied.  What a machine holds after installing the snapshot and replaying the
log from the fixed id up to entry `n` is therefore what entries `1..n` give,
except for dialogs that were changed between the two moments and that the
replay does not touch: `snapshot_replay_iff`.
-/

namespace SmithsNet.Raft

open Lib SmithsNet.Core DialogStateMachine

/-- The machine that has applied exactly these entries. -/
def applied (entries : List Entry) : DialogStateMachine := apply (.new .empty) entries

/-- Equal dialog tables, last applied log ids and memberships. -/
def DialogStateMachine.Same (sm sm' : DialogStateMachine) : Prop :=
  (∀ k, sm.dialogs.find k = sm'.dialogs.find k) ∧ sm.lastApplied = sm'.lastApplied ∧
    sm.lastMembership = sm'.lastMembership

/-- Entries `k + 1` to `n` of a log. -/
def between (entries : List Entry) (k n : Nat) : List Entry := (entries.take n).drop k

theorem take_append_between (entries : List Entry) {k n : Nat} (h : k ≤ n) :
    entries.take k ++ between entries k n = entries.take n := by
  have htake : entries.take k = (entries.take n).take k := by
    rw [List.take_take, Nat.min_eq_left h]
  rw [htake, between, List.take_append_drop]

theorem applied_take (entries : List Entry) {k n : Nat} (h : k ≤ n) :
    applied (entries.take n) = (applied (entries.take k)).apply (between entries k n) := by
  rw [applied, applied, ← apply_append, take_append_between entries h]

theorem find_applied (entries : List Entry) (key : DialogKey) :
    (applied entries).dialogs.find key = (lastFor key (deltas entries)).getD none := by
  rw [applied, find_apply]
  rfl

section

variable (json : Json) {shards : Nat} (shardOf : DialogKey → Fin shards) (entries : List Entry)
  (k : Nat) (built : Fin shards → Nat)

/-- The snapshot of a builder taken after entry `k` that reads shard `i` of the
table after entry `built i`. -/
def snapshotAt : Snapshot :=
  (applied (entries.take k)).getSnapshotBuilder.buildSnapshot json shardOf fun i =>
    (applied (entries.take (built i))).dialogs

/-- What that builder writes. -/
def payloadAt : SnapshotPayload :=
  (applied (entries.take k)).getSnapshotBuilder.payload shardOf fun i =>
    (applied (entries.take (built i))).dialogs

/-- Installing a snapshot on `sm` and replaying the log up to entry `n`. -/
def replayed (sm : DialogStateMachine) (n : Nat) : Option DialogStateMachine :=
  (sm.installSnapshot json (snapshotAt json shardOf entries k built).snapshotMeta
    (snapshotAt json shardOf entries k built).snapshot).map (·.apply (between entries k n))

/-- A machine that has installed the snapshot: nothing is left of what it was. -/
def installed : DialogStateMachine where
  dialogs := Keyed.restore (payloadAt shardOf entries k built).dialogs
  lastApplied := (applied (entries.take k)).lastApplied
  lastMembership := (applied (entries.take k)).lastMembership
  currentSnapshot := some (snapshotAt json shardOf entries k built)

variable {json shardOf entries k built}

theorem replayed_eq (sm : DialogStateMachine) (n : Nat)
    (hjson : json.fromSlice (json.toVec (payloadAt shardOf entries k built)) =
      some (payloadAt shardOf entries k built)) :
    replayed json shardOf entries k built sm n =
      some ((installed json shardOf entries k built).apply (between entries k n)) := by
  have hread : json.fromSlice (snapshotAt json shardOf entries k built).snapshot =
      some (payloadAt shardOf entries k built) := hjson
  rw [replayed, installSnapshot, hread]
  rfl

theorem find_replayed (n : Nat) (hbuilt : ∀ i, k ≤ built i) (key : DialogKey) :
    ((installed json shardOf entries k built).apply (between entries k n)).dialogs.find key =
      (lastFor key (deltas (between entries k n))).getD
        ((lastFor key (deltas (between entries k (built (shardOf key))))).getD
          ((applied (entries.take k)).dialogs.find key)) := by
  have hinstalled : (installed json shardOf entries k built).dialogs.find key =
      (applied (entries.take (built (shardOf key)))).dialogs.find key :=
    Keyed.find_restore_collect shardOf _ key
  rw [find_apply, hinstalled, applied_take entries (hbuilt _), find_apply]

/-- The last applied log id and the membership are right in any case. -/
theorem appliedState_replayed {n : Nat} (hn : k ≤ n) :
    ((installed json shardOf entries k built).apply (between entries k n)).appliedState =
      (applied (entries.take n)).appliedState := by
  have hk : (installed json shardOf entries k built).appliedState =
      (applied (entries.take k)).appliedState := rfl
  rw [applied_take entries hn]
  exact appliedState_apply hk _

/-- The table is right when every dialog the replay does not touch was read as
it was when the builder was made. -/
theorem dialogs_replayed_iff {n : Nat} (hn : k ≤ n) (hbuilt : ∀ i, k ≤ built i) (key : DialogKey) :
    ((installed json shardOf entries k built).apply (between entries k n)).dialogs.find key =
        (applied (entries.take n)).dialogs.find key ↔
      ∀ v, lastFor key (deltas (between entries k n)) = none →
        lastFor key (deltas (between entries k (built (shardOf key)))) = some v →
          v = (lastFor key (deltas (entries.take k))).getD none := by
  rw [find_replayed n hbuilt, applied_take entries hn, find_apply, find_applied]
  cases lastFor key (deltas (between entries k n)) with
  | some w => simp
  | none =>
    cases lastFor key (deltas (between entries k (built (shardOf key)))) with
    | none => simp
    | some w => simp

end

/-- **Snapshot and replay.**  Take a builder after entry `k`, let it read the
shards of the table after entries `built i ≥ k`, install the snapshot on any
machine and replay entries `k + 1` to `n`.  The result is the machine that has
applied entries `1` to `n` if and only if every dialog that none of the
entries `k + 1` to `n` changes, but that was changed after entry `k` before its
shard was read, was changed back to what it was after entry `k`. -/
theorem snapshot_replay_iff (json : Json) {shards : Nat} (shardOf : DialogKey → Fin shards)
    (entries : List Entry) (k n : Nat) (built : Fin shards → Nat) (sm : DialogStateMachine)
    (hn : k ≤ n) (hbuilt : ∀ i, k ≤ built i)
    (hjson : json.fromSlice (json.toVec (payloadAt shardOf entries k built)) =
      some (payloadAt shardOf entries k built)) :
    (∃ sm', replayed json shardOf entries k built sm n = some sm' ∧
        sm'.Same (applied (entries.take n))) ↔
      ∀ key v, lastFor key (deltas (between entries k n)) = none →
        lastFor key (deltas (between entries k (built (shardOf key)))) = some v →
          v = (lastFor key (deltas (entries.take k))).getD none := by
  rw [replayed_eq sm n hjson]
  have hstate : ((installed json shardOf entries k built).apply (between entries k n)).appliedState =
      (applied (entries.take n)).appliedState := appliedState_replayed hn
  obtain ⟨hlast, hmem⟩ := Prod.mk.inj hstate
  constructor
  · rintro ⟨sm', hsm', hsame, _⟩ key
    rw [← Option.some.inj hsm'] at hsame
    exact (dialogs_replayed_iff hn hbuilt key).mp (hsame key)
  · intro h
    exact ⟨_, rfl, fun key => (dialogs_replayed_iff hn hbuilt key).mpr (h key), hlast, hmem⟩

/-- Entry `index` of term 1, proposed by node 0. -/
def sampleEntry (index : UInt64) (callId : String) : Entry where
  logId := ⟨⟨1, 0⟩, index⟩
  payload := .normal (.upsert (sampleRecord callId 1))

/-- Two new calls. -/
def sampleLog : List Entry := [sampleEntry 1 "call-1", sampleEntry 2 "call-2"]

theorem mod_four_lt (n : Nat) : n % 4 < 4 := Nat.mod_lt n (by decide)

def quarter (n : Nat) : Fin 4 := ⟨n % 4, mod_four_lt n⟩

/-- Calls over four shards. -/
def sampleShard (key : DialogKey) : Fin 4 := quarter key.1.length

/-- The bytes of the snapshot taken after the first call that has read both. -/
def sampleJsonText : String :=
  "\x7b\"dialogs\":[" ++
  "\x7b\"call_id\":\"call-2\",\"local_tag\":\"lt\",\"remote_tag\":\"rt\",\"state\":\"confirmed\"," ++
  "\"peer_signal\":\"127.0.0.1:5060\",\"rendezvous\":null,\"media\":null,\"remote_media\":null," ++
  "\"local_cseq\":0,\"remote_cseq\":1\x7d," ++
  "\x7b\"call_id\":\"call-1\",\"local_tag\":\"lt\",\"remote_tag\":\"rt\",\"state\":\"confirmed\"," ++
  "\"peer_signal\":\"127.0.0.1:5060\",\"rendezvous\":null,\"media\":null,\"remote_media\":null," ++
  "\"local_cseq\":0,\"remote_cseq\":1\x7d]," ++
  "\"last_applied_term\":1,\"last_applied_node\":0,\"last_applied_index\":1\x7d"

/-- The JSON library on that snapshot. -/
def sampleJson : Json where
  toVec _ := sampleJsonText.toUTF8.toList
  fromSlice bytes :=
    if bytes = sampleJsonText.toUTF8.toList then some (payloadAt sampleShard sampleLog 1 fun _ => 2)
    else none

theorem sampleJson_fromSlice_toVec :
    sampleJson.fromSlice (sampleJson.toVec (payloadAt sampleShard sampleLog 1 fun _ => 2)) =
      some (payloadAt sampleShard sampleLog 1 fun _ => 2) := if_pos rfl

/-- Replayed as far as the table had been read, the snapshot is right. -/
theorem snapshot_replay_to_reading :
    ∃ sm', replayed sampleJson sampleShard sampleLog 1 (fun _ => 2) (.new .empty) 2 = some sm' ∧
      sm'.Same (applied (sampleLog.take 2)) := by
  refine (snapshot_replay_iff sampleJson sampleShard sampleLog 1 2 (fun _ => 2) (.new .empty)
    (by decide) (fun _ => by decide) sampleJson_fromSlice_toVec).mpr ?_
  intro key v hnone hsome
  rw [hnone] at hsome
  contradiction

/-- Replayed no further than the builder's own entry, it also holds the call
that came after. -/
theorem snapshot_holds_later_call :
    ¬ ∀ (json : Json) (shards : Nat) (shardOf : DialogKey → Fin shards) (entries : List Entry)
      (k n : Nat) (built : Fin shards → Nat), k ≤ n → (∀ i, k ≤ built i) →
        json.fromSlice (json.toVec (payloadAt shardOf entries k built)) =
          some (payloadAt shardOf entries k built) →
        ∃ sm', replayed json shardOf entries k built (.new .empty) n = some sm' ∧
          sm'.Same (applied (entries.take n)) := by
  intro h
  obtain ⟨sm', hsm', hsame, _⟩ := h sampleJson 4 sampleShard sampleLog 1 1 (fun _ => 2)
    (Nat.le_refl 1) (fun _ => by decide) sampleJson_fromSlice_toVec
  rw [replayed_eq _ 1 sampleJson_fromSlice_toVec, Option.some.injEq] at hsm'
  rw [← hsm'] at hsame
  have hiff := (dialogs_replayed_iff (Nat.le_refl 1) (fun _ => by decide)
    ("call-2", "lt", "rt")).mp (hsame ("call-2", "lt", "rt"))
  have hread := hiff (some (sampleRecord "call-2" 1)) (by decide +kernel) (by decide +kernel)
  exact absurd hread (by decide +kernel)

end SmithsNet.Raft
