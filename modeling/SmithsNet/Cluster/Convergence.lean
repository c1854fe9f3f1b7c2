import SmithsNet.Cluster.Replication

/-!
# SmithsNet.Cluster.Convergence

When the secondary's dialog table equals the primary's.

The invariant `Sound` follows each dialog on its own.  As long as deltas of it
are on their way, the last of them carries its record (`current`); once none
is, the secondary will hold its record when everything written has arrived,
unless a snapshot that has not read it yet is under way or is asked for by the
resync flag (`synced`).

A snapshot is written in front of the deltas that were queued before it was
taken.  If a delta of a dialog is refused while an older one waits in the
queue, the older one comes after the snapshot and nothing corrects it:
`stale_delta_after_snapshot`.  In runs without such a refusal the two sides
converge (`replication_converges`).
-/

namespace SmithsNet.Cluster

open Lib SmithsNet.Core

/-! ## what is on its way -/

/-- The frames the sender is committed to write, the snapshot as far as read. -/
def Sender.late : Sender → List ReplFrame
  | .reading held _ records => .snapshot records :: held.toList.map .delta
  | .writing frame held => frame :: held.toList.map .delta
  | _ => []

@[simp] theorem Sender.late_idle : Sender.idle.late = [] := rfl

@[simp] theorem Sender.late_received (c : DialogDelta) : (Sender.received c).late = [] := rfl

/-- The sender serves a connection. -/
def Sender.Connected : Sender → Prop
  | .waiting | .stopped => False
  | _ => True

/-- The snapshot under way has yet to read the record of `k`, and nothing that
follows it touches that record. -/
def Sender.Unread (d : Deployment) (k : DialogKey) : Sender → Prop
  | .clearing _ => True
  | .reading held shard _ => shard ≤ (d.shardOf k).val ∧ ∀ c ∈ held.toList, c.key ≠ k
  | _ => False

namespace Replication

/-- The deltas on their way to the sender, oldest first. -/
def pending (s : Replication) : List DialogDelta := s.sender.early ++ (s.queue ++ s.changes)

/-- The secondary's table once it has applied these frames. -/
def received (s : Replication) (frames : List ReplFrame) : DialogTable :=
  frames.foldl applyFrame s.secondary

end Replication

/-- What holds in every state of an undisturbed run. -/
structure Sound (d : Deployment) (s : Replication) : Prop where
  current : ∀ k v, lastFor k s.pending = some v → s.dialogs.find k = v
  synced : ∀ frames, s.wire = some frames → s.sender.Connected → ∀ k, lastFor k s.pending = none →
    k ∉ s.drops → s.resyncNeeded = true ∨ s.sender.Unread d k ∨
      (s.received (frames ++ s.sender.late)).find k = s.dialogs.find k
  fresh : ∀ held shard records, s.sender = .reading held shard records →
    ∀ r ∈ records, (d.shardOf r.key).val < shard

/-! ## applying frames -/

theorem foldl_applyFrame_delta (t : DialogTable) (cs : List DialogDelta) :
    (cs.map ReplFrame.delta).foldl applyFrame t = t.applyAll cs := by
  rw [List.foldl_map]
  rfl

namespace Replication

variable (s : Replication) (frames : List ReplFrame) (k : DialogKey)

theorem received_append (fs : List ReplFrame) :
    s.received (frames ++ fs) = fs.foldl applyFrame (s.received frames) := List.foldl_append

theorem find_received_delta (c : DialogDelta) : (s.received (frames ++ [.delta c])).find k =
      if c.key = k then c.value else (s.received frames).find k := by
  rw [received_append]
  by_cases hk : c.key = k
  · rw [if_pos hk, ← hk]
    exact Keyed.find_apply_self ..
  · rw [if_neg hk]
    exact Keyed.find_apply_ne _ hk

theorem find_received_snapshot (records : List DialogRecord) (cs : List DialogDelta) :
    (s.received (frames ++ .snapshot records :: cs.map .delta)).find k =
      (lastFor k cs).getD ((Keyed.restore records).find k) := by
  rw [received_append, List.foldl_cons, foldl_applyFrame_delta, Keyed.find_applyAll]
  rfl

example : ((Replication.start .empty .empty).received [.snapshot [sampleRecord "call-1" 1]]).find
    ("call-1", "lt", "rt") = some (sampleRecord "call-1" 1) := by decide +kernel

end Replication

/-! ## reading a shard -/

theorem find_restore_shard (d : Deployment) (t : DialogTable) {records : List DialogRecord}
    {shard : Nat} (hfresh : ∀ r ∈ records, (d.shardOf r.key).val < shard) (k : DialogKey) :
    (Keyed.restore (records ++ t.values fun k => decide ((d.shardOf k).val = shard))).find k =
      if (d.shardOf k).val = shard then t.find k else (Keyed.restore records).find k := by
  rw [Keyed.find_restore, List.map_append, lastFor_append, Keyed.lastFor_values,
    Keyed.find_restore]
  by_cases hk : (d.shardOf k).val = shard
  · rw [if_pos (decide_eq_true hk), if_pos hk]
    have hnone : lastFor k (records.map Change.upsert) = none := by
      refine lastFor_eq_none_iff.mpr ?_
      intro c hc heq
      obtain ⟨r, hr, rfl⟩ := List.mem_map.mp hc
      have hlt := hfresh r hr
      have hkey : r.key = k := heq
      rw [hkey] at hlt
      omega
    rw [hnone, Option.or_none]
    cases t.find k <;> rfl
  · rw [if_neg hk, if_neg (by simpa using hk), Option.none_or]

/-! ## one step -/

namespace Sound

open Replication

variable {d : Deployment} {s : Replication}

theorem start (d : Deployment) (dialogs secondary : DialogTable) :
    Sound d (.start dialogs secondary) := by
  constructor
  · intro k v h
    exact absurd h (by simp [Replication.start, pending, Sender.early])
  · intro frames h
    exact absurd h (by simp [Replication.start])
  · intro held shard records h
    exact absurd h (by simp [Replication.start])

theorem change (h : Sound d s) (c : DialogDelta) :
    Sound d { s with dialogs := s.dialogs.apply c, changes := s.changes ++ [c] } := by
  have hpending : ({ s with dialogs := s.dialogs.apply c, changes := s.changes ++ [c] } :
      Replication).pending = s.pending ++ [c] := by
    simp [pending]
  constructor
  · intro k v hv
    rw [hpending, lastFor_append, lastFor_cons, lastFor_nil, Option.none_or] at hv
    by_cases hk : c.key = k
    · rw [if_pos hk, Option.some_or, Option.some.injEq] at hv
      rw [← hv, ← hk]
      exact Keyed.find_apply_self ..
    · rw [if_neg hk, Option.none_or] at hv
      rw [← h.current k v hv]
      exact Keyed.find_apply_ne _ hk
  · intro frames hwire hconn k hnone hdrop
    rw [hpending, lastFor_append, Option.or_eq_none_iff] at hnone
    have hk : c.key ≠ k := lastFor_eq_none_iff.mp hnone.1 c (by simp)
    obtain hflag | hunread | hview := h.synced frames hwire hconn k hnone.2 hdrop
    · exact Or.inl hflag
    · exact Or.inr (Or.inl hunread)
    · exact Or.inr (Or.inr (hview.trans (Keyed.find_apply_ne _ hk).symm))
  · exact h.fresh

variable {records : List DialogRecord} {i shard : Nat} {held : Option DialogDelta}
    {frame : ReplFrame} {s' : Replication}

theorem changes_split {c : DialogDelta} (hc : s.changes[i]? = some c) :
    s.changes = s.changes.take i ++ c :: s.changes.drop (i + 1) ∧
      s.changes.eraseIdx i = s.changes.take i ++ s.changes.drop (i + 1) := by
  obtain ⟨hi, rfl⟩ := List.getElem?_eq_some_iff.mp hc
  exact ⟨by rw [List.getElem_cons_drop, List.take_append_drop], List.eraseIdx_eq_take_drop_succ ..⟩

section

variable (h : Sound d s)
include h

theorem enqueue {c : DialogDelta} (hc : s.changes[i]? = some c)
    (horder : ∀ a ∈ s.changes.take i, a.key ≠ c.key) :
    Sound d { s with changes := s.changes.eraseIdx i, queue := s.queue ++ [c] } := by
  obtain ⟨hsplit, herase⟩ := changes_split hc
  have hpending : ∀ k, lastFor k ({ s with
      changes := s.changes.eraseIdx i, queue := s.queue ++ [c] } : Replication).pending =
        lastFor k s.pending := by
    intro k
    have hmove := lastFor_move horder k (s.sender.early ++ s.queue) (s.changes.drop (i + 1))
    rw [← hsplit, ← herase] at hmove
    simpa [pending] using hmove
  constructor
  · intro k v hv
    rw [hpending] at hv
    exact h.current k v hv
  · intro frames hwire hconn k hnone hdrop
    rw [hpending] at hnone
    exact h.synced frames hwire hconn k hnone hdrop
  · exact h.fresh

theorem refuse {c : DialogDelta} (hc : s.changes[i]? = some c)
    (horder : ∀ a ∈ s.changes.take i, a.key ≠ c.key)
    (hqueue : ∀ a ∈ s.sender.early ++ s.queue, a.key ≠ c.key) :
    Sound d { s with changes := s.changes.eraseIdx i, drops := s.drops ++ [c.key] } := by
  obtain ⟨hsplit, herase⟩ := changes_split hc
  have hbefore : lastFor c.key (s.sender.early ++ s.queue ++ s.changes.take i) = none := by
    rw [lastFor_eq_none_iff]
    intro a ha
    obtain ha | ha := List.mem_append.mp ha
    · exact hqueue a ha
    · exact horder a ha
  have hold : s.pending =
      (s.sender.early ++ s.queue ++ s.changes.take i) ++ c :: s.changes.drop (i + 1) := by
    conv_lhs => rw [pending, hsplit]
    simp
  have hnew : ({ s with
      changes := s.changes.eraseIdx i, drops := s.drops ++ [c.key] } : Replication).pending =
        (s.sender.early ++ s.queue ++ s.changes.take i) ++ s.changes.drop (i + 1) := by
    rw [pending, herase]
    simp
  constructor
  · intro k v hv
    rw [hnew] at hv
    refine h.current k v ?_
    rw [hold]
    by_cases hk : c.key = k
    · subst hk
      -- only a newer change can speak for this dialog
      rw [lastFor_append, hbefore, Option.or_none] at hv
      exact lastFor_append_of_some (lastFor_append_of_some hv [c]) _
    · rw [lastFor_remove hk]
      exact hv
  · intro frames hwire hconn k hnone hdrop
    have hk : c.key ≠ k := by
      intro hk
      exact hdrop (by simp [hk])
    rw [hnew, ← lastFor_remove hk, ← hold] at hnone
    exact h.synced frames hwire hconn k hnone fun hmem => hdrop (List.mem_append_left _ hmem)
  · exact h.fresh

theorem of_not_connected (hconn : ¬ s'.sender.Connected)
    (hdialogs : s'.dialogs = s.dialogs) (hpending : ∃ cs, s.pending = cs ++ s'.pending) :
    Sound d s' := by
  constructor
  · intro k v hv
    obtain ⟨cs, hcs⟩ := hpending
    rw [hdialogs]
    refine h.current k v ?_
    rw [hcs]
    exact lastFor_append_of_some hv cs
  · intro frames _ hconn'
    exact absurd hconn' hconn
  · intro held shard records hs
    rw [hs] at hconn
    exact absurd trivial hconn

theorem beginSnapshot {wire : Option (List ReplFrame)} (hearly : s.sender.early = held.toList) :
    Sound d { s with sender := .clearing held, wire := wire } := by
  have hpending : ({ s with sender := .clearing held, wire := wire } : Replication).pending =
      s.pending := by
    rw [pending, pending, hearly]
    rfl
  constructor
  · intro k v hv
    rw [hpending] at hv
    exact h.current k v hv
  · intro frames _ _ k _ _
    exact Or.inr (Or.inl trivial)
  · intro held shard records hs
    contradiction

theorem raise (i : Nat) : Sound d { s with drops := s.drops.eraseIdx i, resyncNeeded := true } := by
  constructor
  · exact h.current
  · intro frames _ _ k _ _
    exact Or.inl rfl
  · exact h.fresh

theorem recv {c : DialogDelta} {queue : List DialogDelta}
    (hsender : s.sender = .idle) (hqueue : s.queue = c :: queue) :
    Sound d { s with sender := .received c, queue := queue } := by
  have hpending : ({ s with sender := .received c, queue := queue } : Replication).pending =
      s.pending := by
    rw [pending, pending, hsender, hqueue]
    rfl
  constructor
  · intro k v hv
    rw [hpending] at hv
    exact h.current k v hv
  · intro frames hwire _ k hnone hdrop
    rw [hpending] at hnone
    have hsynced := h.synced frames hwire (by rw [hsender]; trivial) k hnone hdrop
    rw [hsender] at hsynced
    exact hsynced
  · intro held shard records hs
    contradiction

theorem send {c : DialogDelta} (hsender : s.sender = .received c) (hflag : s.resyncNeeded = false) :
    Sound d { s with sender := .writing (.delta c) none } := by
  have hpending : s.pending = [c] ++ (s.queue ++ s.changes) := by
    rw [pending, hsender]
    rfl
  constructor
  · intro k v hv
    refine h.current k v ?_
    rw [hpending]
    exact lastFor_append_of_some hv [c]
  · intro frames hwire _ k hnone hdrop
    have hrest : lastFor k (s.queue ++ s.changes) = none := hnone
    have hview : (s.received (frames ++ [.delta c])).find k = s.dialogs.find k := by
      rw [find_received_delta]
      by_cases hk : c.key = k
      · rw [if_pos hk, h.current k c.value]
        rw [hpending, lastFor_append, hrest, Option.none_or, lastFor_cons, if_pos hk]
        rfl
      · rw [if_neg hk]
        have hold : lastFor k s.pending = none := by
          rw [hpending, List.singleton_append, lastFor_cons_ne hk, hrest]
        obtain hup | hunread | hview := h.synced frames hwire (by rw [hsender]; trivial) k hold hdrop
        · rw [hflag] at hup
          contradiction
        · rw [hsender] at hunread
          contradiction
        · rwa [hsender, Sender.late_received, List.append_nil] at hview
    exact Or.inr (Or.inr hview)
  · intro held shard records hs
    contradiction

theorem heartbeat (hsender : s.sender = .idle) :
    Sound d { s with sender := .writing .heartbeat none } := by
  have hpending : ({ s with sender := .writing .heartbeat none } : Replication).pending =
      s.pending := by
    rw [pending, pending, hsender]
    rfl
  constructor
  · intro k v hv
    rw [hpending] at hv
    exact h.current k v hv
  · intro frames hwire _ k hnone hdrop
    rw [hpending] at hnone
    have hsynced := h.synced frames hwire (by rw [hsender]; trivial) k hnone hdrop
    rw [hsender, Sender.late_idle, List.append_nil] at hsynced
    obtain hup | hunread | hview := hsynced
    · exact Or.inl hup
    · contradiction
    · refine Or.inr (Or.inr ?_)
      show (s.received (frames ++ [.heartbeat])).find k = _
      rw [received_append]
      exact hview
  · intro held shard records hs
    contradiction

/-- The flag is cleared: from here on a delta in hand is old, and all but its
own dialog are still to be read. -/
theorem clear (hsender : s.sender = .clearing held) :
    Sound d { s with sender := .reading held 0 [], resyncNeeded := false } := by
  have hpending : s.pending = held.toList ++ (s.queue ++ s.changes) := by
    rw [pending, hsender]
    rfl
  constructor
  · intro k v hv
    refine h.current k v ?_
    rw [hpending]
    exact lastFor_append_of_some hv _
  · intro frames hwire _ k hnone hdrop
    have hrest : lastFor k (s.queue ++ s.changes) = none := hnone
    rcases hheld : lastFor k held.toList with _ | v
    · exact Or.inr (Or.inl ⟨Nat.zero_le _, lastFor_eq_none_iff.mp hheld⟩)
    · refine Or.inr (Or.inr ?_)
      show (s.received (frames ++ .snapshot [] :: held.toList.map .delta)).find k = _
      rw [find_received_snapshot, hheld, h.current k v, Option.getD_some]
      rw [hpending, lastFor_append, hrest, Option.none_or, hheld]
  · intro held' shard records hs
    obtain ⟨_, _, rfl⟩ := Sender.reading.inj hs
    simp

theorem readShard (hsender : s.sender = .reading held shard records) : Sound d { s with
      sender := .reading held (shard + 1)
        (records ++ s.dialogs.values fun k => decide ((d.shardOf k).val = shard)) } := by
  have hfresh := h.fresh held shard records hsender
  have hpending : s.pending = s.queue ++ s.changes := by
    rw [pending, hsender]
    rfl
  constructor
  · intro k v hv
    refine h.current k v ?_
    rw [hpending]
    exact hv
  · intro frames hwire _ k hnone hdrop
    have hold := h.synced frames hwire (by rw [hsender]; trivial) k (by rw [hpending]; exact hnone)
      hdrop
    rw [hsender, Sender.late, find_received_snapshot] at hold
    have hnew : (s.received (frames ++ .snapshot (records ++
        s.dialogs.values fun k => decide ((d.shardOf k).val = shard)) ::
          held.toList.map .delta)).find k = (lastFor k held.toList).getD
            (if (d.shardOf k).val = shard then s.dialogs.find k
              else (Keyed.restore records).find k) := by
      rw [find_received_snapshot, find_restore_shard d s.dialogs hfresh]
    obtain hup | ⟨hle, hheld⟩ | hview := hold
    · exact Or.inl hup
    · by_cases hk : (d.shardOf k).val = shard
      · -- read just now
        refine Or.inr (Or.inr (hnew.trans ?_))
        rw [if_pos hk, lastFor_eq_none_iff.mpr hheld, Option.getD_none]
      · exact Or.inr (Or.inl ⟨by omega, hheld⟩)
    · refine Or.inr (Or.inr (hnew.trans ?_))
      by_cases hk : (d.shardOf k).val = shard
      · rw [if_pos hk]
        cases hlast : lastFor k held.toList with
        | none => rfl
        | some v => rwa [hlast] at hview
      · rw [if_neg hk]
        exact hview
  · intro held' shard' records' hs r hr
    obtain ⟨rfl, rfl, rfl⟩ := Sender.reading.inj hs
    obtain hr | hr := List.mem_append.mp hr
    · have hlt := hfresh r hr
      omega
    · have heq := Keyed.mem_values hr
      have hkey : (d.shardOf r.key).val = shard := of_decide_eq_true heq
      omega

theorem readDone (hsender : s.sender = .reading held shard records) (hdone : ¬ shard < d.shards) :
    Sound d { s with sender := .writing (.snapshot records) held } := by
  have hpending : s.pending = s.queue ++ s.changes := by
    rw [pending, hsender]
    rfl
  constructor
  · intro k v hv
    refine h.current k v ?_
    rw [hpending]
    exact hv
  · intro frames hwire _ k hnone hdrop
    have hold := h.synced frames hwire (by rw [hsender]; trivial) k (by rw [hpending]; exact hnone)
      hdrop
    rw [hsender] at hold
    obtain hup | ⟨hle, _⟩ | hview := hold
    · exact Or.inl hup
    · have hlt := (d.shardOf k).isLt
      omega
    · exact Or.inr (Or.inr hview)
  · intro held' shard' records' hs
    contradiction

theorem write (hsender : s.sender = .writing frame held) :
    Sound d { s with sender := resume held, wire := s.sent frame } := by
  have hearly : (resume held).early = [] := by
    cases held <;> rfl
  have hlate : (resume held).late = held.toList.map .delta := by
    cases held <;> rfl
  have hpending : ({ s with sender := resume held, wire := s.sent frame } : Replication).pending =
      s.pending := by
    rw [pending, pending, hsender, hearly]
    rfl
  constructor
  · intro k v hv
    rw [hpending] at hv
    exact h.current k v hv
  · intro frames hwire _ k hnone hdrop
    rw [hpending] at hnone
    obtain ⟨frames₀, hwire₀, rfl⟩ := Option.map_eq_some_iff.mp hwire
    have hold := h.synced frames₀ hwire₀ (by rw [hsender]; trivial) k hnone hdrop
    rw [hsender] at hold
    obtain hup | hunread | hview := hold
    · exact Or.inl hup
    · contradiction
    · refine Or.inr (Or.inr ?_)
      show (s.received (frames₀ ++ [frame] ++ (resume held).late)).find k = _
      rw [hlate, List.append_assoc]
      exact hview
  · intro held' shard' records' hs
    cases held <;> contradiction

theorem deliver {frames : List ReplFrame}
    (hwire : s.wire = some (frame :: frames)) (hparse : d.parse frame = some frame) :
    Sound d { s with secondary := s.readLine d frame, wire := some frames } := by
  have hread : s.readLine d frame = applyFrame s.secondary frame := by
    rw [readLine, hparse]
  rw [hread]
  constructor
  · exact h.current
  · intro frames' hframes hconn k hnone hdrop
    obtain rfl := Option.some.inj hframes
    exact h.synced _ hwire hconn k hnone hdrop
  · exact h.fresh

theorem hangUp : Sound d { s with wire := none } := by
  constructor
  · exact h.current
  · intro frames hwire
    contradiction
  · exact h.fresh

/-- **Every undisturbed step keeps the invariant.** -/
theorem step {a : Action} (hok : Undisturbed d s a) (hs : s.step d a = some s') : Sound d s' := by
  cases a with
  | change c =>
    rw [← Option.some.inj hs]
    exact h.change c
  | replicate i =>
    simp only [Replication.step] at hs
    split at hs
    · contradiction
    · next c hc =>
      obtain ⟨horder, hqueue⟩ := hok c hc
      split at hs
      · rw [← Option.some.inj hs]
        exact h.enqueue hc horder
      · next hfull =>
        rw [← Option.some.inj hs]
        exact h.refuse hc horder (hqueue hfull)
  | raise i =>
    simp only [Replication.step] at hs
    split at hs
    · rw [← Option.some.inj hs]
      exact h.raise i
    · contradiction
  | discard =>
    simp only [Replication.step] at hs
    split at hs
    · next c queue hsender hqueue =>
      rw [← Option.some.inj hs]
      refine h.of_not_connected (by simp [hsender, Sender.Connected]) rfl ⟨[c], ?_⟩
      simp [pending, hsender, hqueue, Sender.early]
    · contradiction
  | accept =>
    simp only [Replication.step] at hs
    split at hs
    · next hsender _ =>
      rw [← Option.some.inj hs]
      exact h.beginSnapshot (by rw [hsender]; rfl)
    · contradiction
  | cancel =>
    simp only [Replication.step] at hs
    split at hs
    · next hsender =>
      rw [← Option.some.inj hs]
      refine h.of_not_connected (by simp [Sender.Connected]) rfl ⟨s.queue, ?_⟩
      simp [pending, hsender, Sender.early]
    · next hsender =>
      rw [← Option.some.inj hs]
      refine h.of_not_connected (by simp [Sender.Connected]) rfl ⟨s.queue, ?_⟩
      simp [pending, hsender, Sender.early]
    · contradiction
  | recv =>
    simp only [Replication.step] at hs
    split at hs
    · next hsender hqueue =>
      rw [← Option.some.inj hs]
      exact h.recv hsender hqueue
    · contradiction
  | look =>
    simp only [Replication.step] at hs
    split at hs
    · next c hsender =>
      rw [← Option.some.inj hs]
      by_cases hflag : s.resyncNeeded = true
      · rw [if_pos hflag]
        exact h.beginSnapshot (by rw [hsender]; rfl)
      · rw [if_neg hflag]
        exact h.send hsender (by simpa using hflag)
    · contradiction
  | beat =>
    simp only [Replication.step] at hs
    split at hs
    · next hsender =>
      rw [← Option.some.inj hs]
      by_cases hflag : s.resyncNeeded = true
      · rw [if_pos hflag]
        exact h.beginSnapshot (by rw [hsender]; rfl)
      · rw [if_neg hflag]
        exact h.heartbeat hsender
    · contradiction
  | clear =>
    simp only [Replication.step] at hs
    split at hs
    · next held hsender =>
      rw [← Option.some.inj hs]
      exact h.clear hsender
    · contradiction
  | read =>
    simp only [Replication.step] at hs
    split at hs
    · next held shard records hsender =>
      split at hs
      · rw [← Option.some.inj hs]
        exact h.readShard hsender
      · next hdone =>
        rw [← Option.some.inj hs]
        exact h.readDone hsender hdone
    · contradiction
  | write =>
    simp only [Replication.step] at hs
    split at hs
    · next frame held hsender =>
      rw [← Option.some.inj hs]
      exact h.write hsender
    · contradiction
  | fail landed =>
    simp only [Replication.step] at hs
    split at hs
    · next frame held hsender =>
      rw [← Option.some.inj hs]
      refine h.of_not_connected (by simp [Sender.Connected]) rfl ⟨[], ?_⟩
      simp [pending, hsender, Sender.early]
    · contradiction
  | deliver =>
    simp only [Replication.step] at hs
    split at hs
    · next frame frames hwire =>
      rw [← Option.some.inj hs]
      exact h.deliver hwire (hok frame (by rw [hwire]; rfl))
    · contradiction
  | hangUp =>
    simp only [Replication.step] at hs
    split at hs
    · rw [← Option.some.inj hs]
      exact h.hangUp
    · contradiction

theorem converged (hq : s.Quiescent) : s.Converged := by
  obtain ⟨hchanges, hdrops, hqueue, hflag, hsender, hwire⟩ := hq
  intro k
  have hnone : lastFor k s.pending = none := by
    simp [pending, hchanges, hqueue, hsender, Sender.early]
  obtain hup | hunread | hview :=
    h.synced [] hwire (by rw [hsender]; trivial) k hnone (by simp [hdrops])
  · rw [hflag] at hup
    contradiction
  · rw [hsender] at hunread
    contradiction
  · rwa [hsender] at hview

end

end Sound

/-! ## every run -/

/-- **Replication converges when no newer change of a dialog is refused behind
an older one.**  In every state of every undisturbed run, whenever nothing is
left to do the secondary's table equals the primary's. -/
theorem replication_converges (d : Deployment) (dialogs secondary : DialogTable)
    (as : List Action) (s : Replication)
    (hexec : exec (Replication.step d) (.start dialogs secondary) as = some s)
    (hmeets : Meets (Replication.step d) (Undisturbed d) (.start dialogs secondary) as)
    (hq : s.Quiescent) : s.Converged := by
  have hsound : Sound d s :=
    exec_invariant_of_meets (fun s a s' (h : Sound d s) hok hs => h.step hok hs) hexec hmeets
      (Sound.start d dialogs secondary)
  exact hsound.converged hq

def sampleDeployment (depth : Nat) : Deployment where
  depth := depth
  shards := 4
  shardOf k := ⟨k.1.length % 4, Nat.mod_lt _ (by decide)⟩
  parse := some

def snapshotActions : List Action := [.clear, .read, .read, .read, .read, .read, .write]

/-- A queue of one place: the change of `call-10` is refused behind a change of
`call-1` and reaches the secondary by a snapshot. -/
def overflowRun : List Action :=
  (.accept :: snapshotActions : List Action) ++
    ([.change (.upsert (sampleRecord "call-1" 1)), .replicate 0,
      .change (.upsert (sampleRecord "call-10" 1)), .replicate 0, .raise 0, .deliver, .recv, .look] : List Action) ++
    snapshotActions ++ ([.write, .deliver, .deliver] : List Action)

theorem replication_converges_overflow :
    ∃ s, exec (Replication.step (sampleDeployment 1)) (.start .empty .empty) overflowRun = some s ∧
      s.Quiescent ∧ s.dialogs.find ("call-10", "lt", "rt") = some (sampleRecord "call-10" 1) ∧
      s.Converged := by
  have hrun : (exec (Replication.step (sampleDeployment 1)) (.start .empty .empty) overflowRun).any
      (fun s => decide (s.Quiescent ∧
        s.dialogs.find ("call-10", "lt", "rt") = some (sampleRecord "call-10" 1))) = true := by
    decide +kernel
  obtain ⟨s, hexec, hs⟩ := Option.any_eq_true _ _ |>.mp hrun
  obtain ⟨hq, hfind⟩ := of_decide_eq_true hs
  have hmeets : Meets (Replication.step (sampleDeployment 1)) (Undisturbed (sampleDeployment 1))
      (.start .empty .empty) overflowRun := by decide +kernel
  exact ⟨s, hexec, hq, hfind, replication_converges _ _ _ overflowRun s hexec hmeets hq⟩

/-! ## a stale delta behind the snapshot -/

def serving (dialogs secondary : DialogTable) (queue : List DialogDelta) : Replication where
  dialogs := dialogs
  changes := []
  drops := []
  queue := queue
  resyncNeeded := false
  sender := .idle
  wire := some []
  secondary := secondary

def fill (c : DialogDelta) (n : Nat) : List Action :=
  (List.replicate n [Action.change c, .replicate 0]).flatten

/-- `n` deltas are sent and applied. -/
def drain (n : Nat) : List Action :=
  (List.replicate n [Action.recv, .look, .write, .deliver]).flatten

variable (d : Deployment) (dialogs secondary : DialogTable) (c : DialogDelta)

theorem exec_fill (hdialogs : dialogs.apply c = dialogs) (n : Nat) (queue : List DialogDelta)
    (hroom : queue.length + n ≤ d.depth) :
    exec (Replication.step d) (serving dialogs secondary queue) (fill c n) =
      some (serving dialogs secondary (queue ++ List.replicate n c)) := by
  induction n generalizing queue with
  | zero =>
    rw [List.replicate_zero, List.append_nil]
    rfl
  | succ n ih =>
    have hround : exec (Replication.step d) (serving dialogs secondary queue)
        [.change c, .replicate 0] = some (serving dialogs secondary (queue ++ [c])) := by
      have hlt : queue.length < d.depth := by omega
      simp [exec, Replication.step, Replication.hasRoom, serving, hdialogs, hlt]
    have hlen : (queue ++ [c]).length + n ≤ d.depth := by
      rw [List.length_append, List.length_singleton]
      omega
    unfold fill
    rw [List.replicate_succ, List.flatten_cons, exec_append, hround, Option.bind_some,
      List.replicate_succ, List.append_cons queue c (List.replicate n c)]
    exact ih (queue ++ [c]) hlen

theorem exec_drain (depth : Nat) (hsecondary : secondary.apply c = secondary) (n : Nat) :
    exec (Replication.step (sampleDeployment depth)) (serving dialogs secondary (List.replicate n c)) (drain n) =
      some (serving dialogs secondary []) := by
  induction n with
  | zero => rfl
  | succ n ih =>
    have hround : exec (Replication.step (sampleDeployment depth))
        (serving dialogs secondary (List.replicate (n + 1) c)) [.recv, .look, .write, .deliver] =
          some (serving dialogs (secondary.apply c) (List.replicate n c)) := rfl
    have hactions : drain (n + 1) = ([.recv, .look, .write, .deliver] : List Action) ++ drain n := rfl
    rw [hactions, exec_append, hround, Option.bind_some, hsecondary]
    exact ih

/-- A secondary connects and gets its snapshot. -/
def connectActions : List Action := .accept :: snapshotActions ++ ([.deliver] : List Action)

theorem exec_connect (depth : Nat) :
    ∃ secondary', exec (Replication.step (sampleDeployment depth)) (.start dialogs secondary)
      connectActions = some (serving dialogs secondary' []) := ⟨_, rfl⟩

/-- The next change is refused; the sender then takes the first queued delta
and writes it behind a snapshot. -/
def resyncActions (c : DialogDelta) : List Action :=
  ([.change c, .replicate 0, .raise 0, .recv, .look] : List Action) ++ snapshotActions ++
    ([.write, .deliver, .deliver] : List Action)

theorem exec_resync (c' : DialogDelta) (queue : List DialogDelta) {depth : Nat}
    (hfull : queue.length + 1 = depth) :
    ∃ secondary', exec (Replication.step (sampleDeployment depth))
      (serving dialogs secondary (c :: queue)) (resyncActions c') =
        some (serving (dialogs.apply c') (Keyed.apply secondary' c) queue) := by
  have hround : exec (Replication.step (sampleDeployment depth))
      (serving dialogs secondary (c :: queue)) [.change c', .replicate 0] =
        some { serving (dialogs.apply c') secondary (c :: queue) with drops := [c'.key] } := by
    simp [exec, Replication.step, Replication.hasRoom, serving, sampleDeployment, hfull]
  have hsplit : resyncActions c' = ([.change c', .replicate 0] : List Action) ++
      (([.raise 0, .recv, .look] : List Action) ++ snapshotActions ++ ([.write, .deliver, .deliver] : List Action)) := rfl
  rw [hsplit, exec_append, hround]
  exact ⟨_, rfl⟩

/-- The record before the last in-dialog request, and after it. -/
def oldDelta : DialogDelta := .upsert (sampleRecord "call-1" 1)

@[inherit_doc oldDelta]
def newDelta : DialogDelta := .upsert (sampleRecord "call-1" 2)

/-- A queue full of deltas of one dialog, a newer one refused. -/
def staleRun : List Action :=
  connectActions ++ (fill oldDelta 1024 ++ (resyncActions newDelta ++ drain 1023))

/-- The queued deltas are older than the snapshot and are applied after it:
nothing is left to do, and the secondary holds an old record. -/
theorem stale_delta_after_snapshot :
    ¬ ∀ (d : Deployment) (dialogs secondary : DialogTable) (as : List Action) (s : Replication),
      d.depth = replicationQueueDepth →
        exec (Replication.step d) (.start dialogs secondary) as = some s → s.Quiescent →
          s.Converged := by
  intro h
  let d := sampleDeployment replicationQueueDepth
  let dialogs : DialogTable := Keyed.empty.apply oldDelta
  obtain ⟨secondary₁, hconnect⟩ := exec_connect dialogs .empty replicationQueueDepth
  have hfill : exec (Replication.step d) (serving dialogs secondary₁ []) (fill oldDelta 1024) =
      some (serving dialogs secondary₁ (oldDelta :: List.replicate 1023 oldDelta)) :=
    exec_fill d dialogs secondary₁ oldDelta (Keyed.apply_upsert_twice ..) 1024 [] (Nat.le_refl _)
  obtain ⟨secondary₂, hresync⟩ :=
    exec_resync dialogs secondary₁ oldDelta newDelta (List.replicate 1023 oldDelta)
      (show _ = replicationQueueDepth by rw [List.length_replicate]; rfl)
  have hdrain := exec_drain (dialogs.apply newDelta) (Keyed.apply secondary₂ oldDelta) oldDelta
    replicationQueueDepth (Keyed.apply_upsert_twice ..) 1023
  have hexec : exec (Replication.step d) (.start dialogs .empty) staleRun =
      some (serving (dialogs.apply newDelta) (Keyed.apply secondary₂ oldDelta) []) := by
    unfold staleRun
    rw [exec_append, hconnect, Option.bind_some, exec_append, hfill, Option.bind_some, exec_append,
      hresync, Option.bind_some]
    exact hdrain
  have hconv := h d dialogs .empty staleRun _ rfl hexec ⟨rfl, rfl, rfl, rfl, rfl, rfl⟩ newDelta.key
  have hsecondary : (Keyed.apply secondary₂ oldDelta).find newDelta.key = oldDelta.value :=
    Keyed.find_apply_self ..
  have hprimary : (Keyed.apply dialogs newDelta).find newDelta.key = newDelta.value :=
    Keyed.find_apply_self ..
  have heq : oldDelta.value = newDelta.value := hsecondary.symm.trans (hconv.trans hprimary)
  exact absurd heq (by decide)

end SmithsNet.Cluster
