import SmithsNet.Raft.LogStore

/-!
# SmithsNet.Raft.LogRefinement

How far the SQLite log store answers as the abstract log.

Row for row the store keeps up with the log through every operation
(`Mirrors.run`).  What it answers about the ends of the log it does not: the
leader's node id is not a column and reads back as 0, and what was purged last
is not kept at all.  `log_store_refines_iff` says when the answers are right.
-/

namespace SmithsNet.Raft

open Lib

theorem castSigned_inj {v w : UInt64} (h : castSigned v = castSigned w) : v = w := by
  rw [← castUnsigned_castSigned v, h, castUnsigned_castSigned]

theorem castSigned_le_iff {v w : UInt64} (hv : v.toNat < 2 ^ 63) (hw : w.toNat < 2 ^ 63) :
    castSigned v ≤ castSigned w ↔ v ≤ w := by
  rw [castSigned_of_lt hv, castSigned_of_lt hw, UInt64.le_iff_toNat_le]
  omega

theorem RaftLog.IsLast.unique {log : RaftLog} {e f : Entry} (he : log.IsLast e)
    (hf : log.IsLast f) : e = f := by
  have hindex : e.logId.index = f.logId.index :=
    UInt64.le_antisymm (hf.2 _ e he.1) (he.2 _ f hf.1)
  have hsame := he.1
  rw [hindex, hf.1, Option.some.injEq] at hsame
  exact hsame.symm

/-! ## row for row -/

/-- The rows are those of the log's entries, whose indices fit the key column
and which the JSON library reads back. -/
structure Mirrors (json : StoreJson) (rows : Sorted LogRow.logIndex) (log : RaftLog) : Prop where
  keyed : ∀ i e, log.entries i = some e → e.logId.index = i
  small : ∀ i e, log.entries i = some e → i.toNat < 2 ^ 63
  parses : ∀ i e, log.entries i = some e → json.entryFromSlice (json.entryToVec e) = some e
  mem_rows : ∀ row, row ∈ rows.rows ↔ ∃ e, log.entries e.logId.index = some e ∧ row = json.rowOf e

/-- The indices of an operation fit the key column. -/
def LogOp.Small : LogOp → Prop
  | .append entries => ∀ e ∈ entries, e.logId.index.toNat < 2 ^ 63
  | .truncate logId | .purge logId => logId.index.toNat < 2 ^ 63
  | _ => True

/-- The JSON library reads the entries of an operation back. -/
def LogOp.Parses (json : StoreJson) : LogOp → Prop
  | .append entries => ∀ e ∈ entries, json.entryFromSlice (json.entryToVec e) = some e
  | _ => True

namespace Mirrors

variable {json : StoreJson} {rows : Sorted LogRow.logIndex} {log : RaftLog}

theorem empty (json : StoreJson) : Mirrors json .empty .empty := by
  constructor
  · intro i e h
    contradiction
  · intro i e h
    contradiction
  · intro i e h
    contradiction
  · intro row
    constructor
    · intro h
      contradiction
    · rintro ⟨e, h, _⟩
      contradiction

section

variable (h : Mirrors json rows log)
include h

theorem write {entry : Entry} (hsmall : entry.logId.index.toNat < 2 ^ 63)
    (hparses : json.entryFromSlice (json.entryToVec entry) = some entry) :
    Mirrors json (rows.put (json.rowOf entry)) (log.write entry) := by
  have hself : (log.write entry).entries entry.logId.index = some entry :=
    Function.update_self ..
  have hne : ∀ {i}, i ≠ entry.logId.index → (log.write entry).entries i = log.entries i :=
    fun hi => Function.update_of_ne hi ..
  have hcases : ∀ {i e}, (log.write entry).entries i = some e →
      i = entry.logId.index ∧ e = entry ∨ log.entries i = some e := by
    intro i e hi
    by_cases heq : i = entry.logId.index
    · rw [heq, hself, Option.some.injEq] at hi
      exact Or.inl ⟨heq, hi.symm⟩
    · rw [hne heq] at hi
      exact Or.inr hi
  constructor
  · intro i e hi
    obtain ⟨rfl, rfl⟩ | hi := hcases hi
    · rfl
    · exact h.keyed i e hi
  · intro i e hi
    obtain ⟨rfl, rfl⟩ | hi := hcases hi
    · exact hsmall
    · exact h.small i e hi
  · intro i e hi
    obtain ⟨rfl, rfl⟩ | hi := hcases hi
    · exact hparses
    · exact h.parses i e hi
  · intro row
    rw [Sorted.mem_put, h.mem_rows]
    constructor
    · rintro (rfl | ⟨⟨e, he, rfl⟩, hkey⟩)
      · exact ⟨entry, hself, rfl⟩
      · refine ⟨e, ?_, rfl⟩
        rw [hne]
        · exact he
        · intro hindex
          exact hkey (congrArg castSigned hindex)
    · rintro ⟨e, he, rfl⟩
      obtain ⟨_, rfl⟩ | hold := hcases he
      · exact Or.inl rfl
      · by_cases hindex : e.logId.index = entry.logId.index
        · rw [hindex, hself, Option.some.injEq] at he
          exact Or.inl (by rw [he])
        · exact Or.inr ⟨⟨e, hold, rfl⟩, fun hkey => hindex (castSigned_inj hkey)⟩

theorem append {entries : List Entry} (hsmall : ∀ e ∈ entries, e.logId.index.toNat < 2 ^ 63)
    (hparses : ∀ e ∈ entries, json.entryFromSlice (json.entryToVec e) = some e) :
    Mirrors json (entries.foldl (fun rows entry => rows.put (json.rowOf entry)) rows)
      (entries.foldl RaftLog.write log) := by
  induction entries generalizing rows log with
  | nil => exact h
  | cons e es ih =>
    obtain ⟨hse, hses⟩ := List.forall_mem_cons.mp hsmall
    obtain ⟨hpe, hpes⟩ := List.forall_mem_cons.mp hparses
    exact ih (h.write hse hpe) hses hpes

theorem cut (p : LogRow → Bool) (c : UInt64 → Prop) [DecidablePred c] (purged : Option LogId)
    (hp : ∀ i e, log.entries i = some e → (p (json.rowOf e) = true ↔ ¬ c i)) :
    Mirrors json (rows.keep p) ⟨fun i => if c i then none else log.entries i, purged⟩ := by
  have hkept : ∀ {i e}, (if c i then none else log.entries i) = some e ↔
      log.entries i = some e ∧ ¬ c i := by
    intro i e
    by_cases hc : c i
    · simp [hc]
    · simp [hc]
  constructor
  · intro i e hi
    exact h.keyed i e (hkept.mp hi).1
  · intro i e hi
    exact h.small i e (hkept.mp hi).1
  · intro i e hi
    exact h.parses i e (hkept.mp hi).1
  · intro row
    rw [Sorted.mem_keep, h.mem_rows]
    constructor
    · rintro ⟨⟨e, he, rfl⟩, hpe⟩
      exact ⟨e, hkept.mpr ⟨he, (hp _ e he).mp hpe⟩, rfl⟩
    · rintro ⟨e, he, rfl⟩
      obtain ⟨he, hc⟩ := hkept.mp he
      exact ⟨⟨e, he, rfl⟩, (hp _ e he).mpr hc⟩

end

theorem step {store : SqliteLogStore} (h : Mirrors json store.raftLogs log) {op : LogOp}
    (hsmall : op.Small) (hparses : op.Parses json) :
    Mirrors json (store.step json op).raftLogs (log.step op) := by
  cases op with
  | append entries => exact h.append hsmall hparses
  | truncate logId =>
    refine h.cut _ (logId.index ≤ ·) _ ?_
    intro i e he
    have hle := castSigned_le_iff hsmall (h.small i e he)
    rw [← h.keyed i e he] at hle ⊢
    rw [Bool.not_eq_true', decide_eq_false_iff_not]
    exact hle.not
  | purge logId =>
    refine h.cut _ (· ≤ logId.index) _ ?_
    intro i e he
    have hle := castSigned_le_iff (h.small i e he) hsmall
    rw [← h.keyed i e he] at hle ⊢
    rw [Bool.not_eq_true', decide_eq_false_iff_not]
    exact hle.not
  | saveVote vote => exact h
  | saveCommitted committed => exact h
  | reopen => exact h

/-- **The store keeps up with the log**, whatever is done to them. -/
theorem run {ops : List LogOp} (hsmall : ∀ op ∈ ops, op.Small)
    (hparses : ∀ op ∈ ops, op.Parses json) :
    Mirrors json (SqliteLogStore.run json ops).raftLogs (RaftLog.run ops) := by
  unfold SqliteLogStore.run RaftLog.run
  have h0 : Mirrors json (SqliteLogStore.new none).raftLogs .empty := empty json
  generalize SqliteLogStore.new none = store at h0
  generalize RaftLog.empty = log at h0
  induction ops generalizing store log with
  | nil => exact h0
  | cons op ops ih =>
    obtain ⟨hs, hss⟩ := List.forall_mem_cons.mp hsmall
    obtain ⟨hp, hps⟩ := List.forall_mem_cons.mp hparses
    exact ih hss hps _ _ (h0.step hs hp)

/-! ## the last log id -/

theorem last_eq_some (h : Mirrors json rows log) {row : LogRow} (hlast : rows.last = some row) :
    ∃ e, log.IsLast e ∧ row = json.rowOf e := by
  obtain ⟨hmem, hmax⟩ := Sorted.le_last hlast
  obtain ⟨e, he, rfl⟩ := (h.mem_rows row).mp hmem
  refine ⟨e, ⟨he, ?_⟩, rfl⟩
  intro i f hf
  have hindex := h.keyed i f hf
  subst hindex
  have hle := hmax _ ((h.mem_rows _).mpr ⟨f, hf, rfl⟩)
  exact (castSigned_le_iff (h.small _ f hf) (h.small _ e he)).mp hle

theorem last_eq_none (h : Mirrors json rows log) (hlast : rows.last = none) (i : UInt64) :
    log.entries i = none := by
  by_contra hne
  obtain ⟨e, he⟩ := Option.ne_none_iff_exists'.mp hne
  have hindex := h.keyed i e he
  subst hindex
  have hmem := (h.mem_rows _).mpr ⟨e, he, rfl⟩
  rw [List.getLast?_eq_none_iff.mp hlast] at hmem
  contradiction

/-- The store's last log id is right when node 0 proposed the last entry. -/
theorem isLastLogId_iff {store : SqliteLogStore} (h : Mirrors json store.raftLogs log)
    (hpurged : log.lastPurged = none) : log.IsLastLogId store.getLogState.lastLogId ↔
      ∀ e, log.IsLast e → e.logId.leaderId.nodeId = 0 := by
  have hstate : store.getLogState.lastLogId = store.raftLogs.last.map fun row =>
      ⟨⟨castUnsigned row.term, 0⟩, castUnsigned row.logIndex⟩ := rfl
  cases hlast : store.raftLogs.last with
  | none =>
    rw [hlast] at hstate
    have hempty := h.last_eq_none hlast
    constructor
    · intro _ e he
      have hstored := he.1
      rw [hempty] at hstored
      contradiction
    · intro _
      exact Or.inr ⟨hempty, hstate.trans hpurged.symm⟩
  | some row =>
    obtain ⟨e, he, rfl⟩ := h.last_eq_some hlast
    have hid : store.getLogState.lastLogId =
        some ⟨⟨e.logId.leaderId.term, 0⟩, e.logId.index⟩ := by
      rw [hstate, hlast, Option.map_some, StoreJson.rowOf, castUnsigned_castSigned,
        castUnsigned_castSigned]
    constructor
    · rintro (⟨f, hf, hfid⟩ | ⟨hempty, _⟩) g hg
      · rw [hg.unique hf]
        rw [hid, Option.some.injEq] at hfid
        rw [← hfid]
      · have hstored := he.1
        rw [hempty] at hstored
        contradiction
    · intro hnode
      refine Or.inl ⟨e, he, ?_⟩
      rw [hid, ← hnode e he]

/-! ## the entries of a range -/

theorem mapM_parse (h : Mirrors json rows log) {rs : List LogRow}
    (hrs : ∀ row ∈ rs, row ∈ rows.rows) :
    ∃ es, rs.mapM (fun row => json.entryFromSlice row.payload) = some es ∧
      rs = es.map json.rowOf ∧ ∀ e ∈ es, log.entries e.logId.index = some e := by
  induction rs with
  | nil => exact ⟨[], rfl, rfl, by simp⟩
  | cons row rs ih =>
    obtain ⟨hrow, hrs⟩ := List.forall_mem_cons.mp hrs
    obtain ⟨es, hes, hmap, hstored⟩ := ih hrs
    obtain ⟨e, he, rfl⟩ := (h.mem_rows row).mp hrow
    have hparse : json.entryFromSlice (json.rowOf e).payload = some e := h.parses _ e he
    refine ⟨e :: es, ?_, ?_, ?_⟩
    · rw [List.mapM_cons, hparse, hes]
      rfl
    · rw [List.map_cons, ← hmap]
    · exact List.forall_mem_cons.mpr ⟨he, hstored⟩

/-- The store's slice is right when no stored index is on one side of the range
read as signed integers and on the other read as unsigned ones. -/
theorem isSlice_iff {store : SqliteLogStore} (h : Mirrors json store.raftLogs log)
    (range : LogRange) :
    (∃ es, store.tryGetLogEntries json range = some es ∧ log.IsSlice range es) ↔
      ∀ i e, log.entries i = some e → (range.selects (castSigned i) = true ↔ range.Contains i) := by
  let kept := store.raftLogs.keep fun row => range.selects row.logIndex
  have hkept : ∀ row ∈ kept.rows, row ∈ store.raftLogs.rows := fun row hrow =>
    (Sorted.mem_keep.mp hrow).1
  obtain ⟨es, hget, hmap, hstored⟩ := h.mapM_parse hkept
  have hget : store.tryGetLogEntries json range = some es := hget
  have hmem : ∀ e, e ∈ es ↔ log.entries e.logId.index = some e ∧
      range.selects (castSigned e.logId.index) = true := by
    intro e
    constructor
    · intro he
      have hrow : json.rowOf e ∈ kept.rows := by
        rw [hmap]
        exact List.mem_map_of_mem he
      exact ⟨hstored e he, (Sorted.mem_keep.mp hrow).2⟩
    · rintro ⟨he, hsel⟩
      have hrow : json.rowOf e ∈ kept.rows :=
        Sorted.mem_keep.mpr ⟨(h.mem_rows _).mpr ⟨e, he, rfl⟩, hsel⟩
      rw [hmap] at hrow
      obtain ⟨f, hf, hfe⟩ := List.mem_map.mp hrow
      -- equal rows have equal indices, and an index holds one entry
      have hindex : f.logId.index = e.logId.index := castSigned_inj (congrArg LogRow.logIndex hfe)
      have hsame := hstored f hf
      rw [hindex, he, Option.some.injEq] at hsame
      rw [hsame]
      exact hf
  have hsorted : es.Pairwise fun a b => a.logId.index < b.logId.index := by
    have hrows := kept.sorted
    rw [hmap, List.pairwise_map] at hrows
    refine hrows.imp_of_mem ?_
    intro a b ha hb hlt
    have hle := castSigned_le_iff (h.small _ b (hstored b hb)) (h.small _ a (hstored a ha))
    rw [← UInt64.not_le, ← hle]
    exact not_le.mpr hlt
  rw [hget]
  constructor
  · rintro ⟨es', hes', _, hslice⟩ i e he
    obtain rfl := Option.some.inj hes'
    have hindex := h.keyed i e he
    subst hindex
    have hiff := (hmem e).symm.trans (hslice e)
    simpa [he] using hiff
  · intro hfits
    refine ⟨es, rfl, hsorted, ?_⟩
    intro e
    rw [hmem e]
    exact and_congr_right fun he => hfits _ e he

end Mirrors

/-! ## purging -/

theorem RaftLog.lastPurged_step (log : RaftLog) (op : LogOp) :
    (log.step op).lastPurged = none ↔ log.lastPurged = none ∧ ∀ logId, op ≠ .purge logId := by
  cases op with
  | append entries =>
    have hwrite : (entries.foldl RaftLog.write log).lastPurged = log.lastPurged := by
      induction entries generalizing log with
      | nil => rfl
      | cons e es ih => exact ih (log.write e)
    simp [RaftLog.step, hwrite]
  | truncate logId => simp [RaftLog.step]
  | purge logId => simp [RaftLog.step]
  | saveVote vote => simp [RaftLog.step]
  | saveCommitted committed => simp [RaftLog.step]
  | reopen => simp [RaftLog.step]

theorem RaftLog.lastPurged_run (ops : List LogOp) :
    (RaftLog.run ops).lastPurged = none ↔ ∀ op ∈ ops, ∀ logId, op ≠ .purge logId := by
  have hfold : ∀ log : RaftLog, (ops.foldl RaftLog.step log).lastPurged = none ↔
      log.lastPurged = none ∧ ∀ op ∈ ops, ∀ logId, op ≠ .purge logId := by
    induction ops with
    | nil => simp
    | cons op ops ih =>
      intro log
      rw [List.foldl_cons, ih, RaftLog.lastPurged_step, and_assoc, List.forall_mem_cons]
  rw [RaftLog.run, hfold]
  exact and_iff_right rfl

/-- **When the store answers as the log.**  After any operations whose indices
fit the key column, `get_log_state` and `try_get_log_entries` over a range
answer as the abstract log does if and only if nothing was ever purged, the
last entry (if there is one) was proposed by node 0, and every stored index is
in the range read as signed integers exactly when it is in the range. -/
theorem log_store_refines_iff (json : StoreJson) (ops : List LogOp) (range : LogRange)
    (hsmall : ∀ op ∈ ops, op.Small) (hparses : ∀ op ∈ ops, op.Parses json) :
    Refines json (SqliteLogStore.run json ops) (RaftLog.run ops) range ↔
      (∀ op ∈ ops, ∀ logId, op ≠ .purge logId) ∧
        (∀ e, (RaftLog.run ops).IsLast e → e.logId.leaderId.nodeId = 0) ∧
        ∀ i e, (RaftLog.run ops).entries i = some e →
          (range.selects (castSigned i) = true ↔ range.Contains i) := by
  have h := Mirrors.run hsmall hparses
  unfold Refines
  rw [h.isSlice_iff range, ← RaftLog.lastPurged_run ops]
  constructor
  · rintro ⟨hlast, hpurged, hslice⟩
    exact ⟨hpurged.symm, (h.isLastLogId_iff hpurged.symm).mp hlast, hslice⟩
  · rintro ⟨hpurged, hnode, hslice⟩
    exact ⟨(h.isLastLogId_iff hpurged).mpr hnode, hpurged.symm, hslice⟩

/-- The bounds of a range fit the key column. -/
def LogRange.Small (range : LogRange) : Prop :=
  (∀ v, range.startBound = .included v → v.toNat < 2 ^ 63) ∧
    (∀ v, range.startBound = .excluded v → v.toNat + 1 < 2 ^ 63) ∧
    ∀ v, range.endBound = .included v ∨ range.endBound = .excluded v → v.toNat < 2 ^ 63

theorem LogRange.selects_iff_contains {range : LogRange} (h : range.Small) {i : UInt64}
    (hi : i.toNat < 2 ^ 63) : range.selects (castSigned i) = true ↔ range.Contains i := by
  obtain ⟨hincl, hexcl, hend⟩ := h
  have hafter : range.startBound.afterStart i.toNat = true ↔ range.startBound.After i := by
    cases hb : range.startBound with
    | included v =>
      simp only [Bound.afterStart, Bound.After, decide_eq_true_eq, castSigned_of_lt (hincl v hb),
        UInt64.le_iff_toNat_le]
      omega
    | excluded v =>
      have hv := hexcl v hb
      have hwrap : wrapSigned (v.toNat + 1) = v.toNat + 1 := by
        unfold wrapSigned
        omega
      simp only [Bound.afterStart, Bound.After, decide_eq_true_eq,
        castSigned_of_lt (show v.toNat < 2 ^ 63 by omega), hwrap, UInt64.lt_iff_toNat_lt]
      omega
    | unbounded => simp [Bound.afterStart, Bound.After]
  have hbefore : range.endBound.beforeEnd i.toNat = true ↔ range.endBound.Before i := by
    cases hb : range.endBound with
    | included v =>
      simp only [Bound.beforeEnd, Bound.Before, decide_eq_true_eq,
        castSigned_of_lt (hend v (Or.inl hb)), UInt64.le_iff_toNat_le]
      omega
    | excluded v =>
      simp only [Bound.beforeEnd, Bound.Before, decide_eq_true_eq,
        castSigned_of_lt (hend v (Or.inr hb)), UInt64.lt_iff_toNat_lt]
      omega
    | unbounded => simp [Bound.beforeEnd, Bound.Before]
  rw [selects, castSigned_of_lt hi, Bool.and_eq_true, hafter, hbefore]
  rfl

/-- The first entry of a term that starts with it. -/
def blankEntry (nodeId : UInt64) : Entry := ⟨⟨⟨1, nodeId⟩, 1⟩, .blank⟩

/-- The JSON library on that entry. -/
def blankJson (nodeId : UInt64) : StoreJson where
  entryToVec _ := (text).toUTF8.toList
  entryFromSlice bytes := if bytes = (text).toUTF8.toList then some (blankEntry nodeId) else none
  voteToVec _ := []
where
  text : String :=
    "\x7b\"log_id\":\x7b\"leader_id\":\x7b\"term\":1,\"node_id\":" ++ toString nodeId ++
      "\x7d,\"index\":1\x7d,\"payload\":\"Blank\"\x7d"

theorem blankJson_parses (nodeId : UInt64) :
    ∀ op ∈ [LogOp.append [blankEntry nodeId], .saveCommitted none, .reopen],
      op.Parses (blankJson nodeId) := by
  have hentry : (blankJson nodeId).entryFromSlice ((blankJson nodeId).entryToVec (blankEntry nodeId))
      = some (blankEntry nodeId) := if_pos rfl
  simp [hentry, LogOp.Parses]

theorem blankOps_small (nodeId : UInt64) :
    ∀ op ∈ [LogOp.append [blankEntry nodeId], .saveCommitted none, .reopen], op.Small := by
  simp [LogOp.Small, blankEntry]

theorem eq_blankEntry {nodeId : UInt64} {e : Entry} {i : UInt64}
    (h : (RaftLog.run [.append [blankEntry nodeId], .saveCommitted none, .reopen]).entries i =
      some e) : i = 1 ∧ e = blankEntry nodeId := by
  have hupdate : Function.update (fun _ => none) 1 (some (blankEntry nodeId)) i = some e := h
  by_cases hi : i = 1
  · rw [hi, Function.update_self, Option.some.injEq] at hupdate
    exact ⟨hi, hupdate.symm⟩
  · rw [Function.update_of_ne hi] at hupdate
    contradiction

/-- A log of one entry that node 0 proposed. -/
theorem log_store_refines_node_zero : Refines (blankJson 0)
      (SqliteLogStore.run (blankJson 0) [.append [blankEntry 0], .saveCommitted none, .reopen])
      (RaftLog.run [.append [blankEntry 0], .saveCommitted none, .reopen])
      ⟨.included 0, .excluded 9⟩ := by
  refine (log_store_refines_iff _ _ _ (blankOps_small 0) (blankJson_parses 0)).mpr ⟨by simp, ?_, ?_⟩
  · intro e he
    rw [(eq_blankEntry he.1).2]
    rfl
  · intro i e he
    obtain ⟨rfl, _⟩ := eq_blankEntry he
    exact LogRange.selects_iff_contains (by simp [LogRange.Small]) (by decide)

/-- The same entry proposed by node 2 is reported as one of node 0. -/
theorem leader_node_id_lost : ¬ ∀ (json : StoreJson) (ops : List LogOp) (range : LogRange),
      (∀ op ∈ ops, op.Parses json) →
        Refines json (SqliteLogStore.run json ops) (RaftLog.run ops) range := by
  intro h
  obtain ⟨hlast, _⟩ := h (blankJson 2) _ ⟨.unbounded, .unbounded⟩ (blankJson_parses 2)
  have hmirrors := Mirrors.run (blankOps_small 2) (blankJson_parses 2)
  have hnode := (hmirrors.isLastLogId_iff rfl).mp hlast (blankEntry 2) ⟨rfl, ?_⟩
  · exact absurd hnode (by decide)
  · intro i e he
    rw [(eq_blankEntry he).1]
    exact UInt64.le_refl 1

end SmithsNet.Raft
