import SmithsNet.Raft.LocalWrites

/-!
# SmithsNet.Raft.NoLostUpdate

Local changes of a dialog against the entries the state machine applies.

An entry carries the record as it was when the change was made.  If the dialog
has been changed again by the time the entry is applied, the table goes back to
the older version until the next entry is applied (`apply_reverts_dialog`).
Where a dialog is changed only when nothing of it is outstanding, every
outstanding delta carries the version the table holds (`Kept`), and applying
it changes nothing: `no_lost_update_one_at_a_time`.
-/

namespace SmithsNet.Raft

open Lib SmithsNet.Core

/-! ## a change is about its dialog -/

theorem key_commitInDialogUpdate (req : RequestSummary) (renegotiation : Renegotiation)
    (timer : Option UInt32) (entry : DialogRecord) :
    (commitInDialogUpdate req renegotiation timer entry).key = entry.key := by
  unfold commitInDialogUpdate
  split <;> split <;> split <;> rfl

theorem LocalChange.key_of_delta {dialogs : DialogTable} {c : LocalChange} {delta : DialogDelta}
    (h : c.delta dialogs = some delta) : delta.key = c.key := by
  cases c with
  | create record =>
    rw [← Option.some.inj h]
    rfl
  | inDialog key req renegotiation timer =>
    obtain ⟨entry, hentry, rfl⟩ := Option.map_eq_some_iff.mp h
    have hkey := dialogs.keyed key entry hentry
    exact (key_commitInDialogUpdate req renegotiation timer entry).trans hkey
  | ack key =>
    obtain ⟨entry, hentry, rfl⟩ := Option.map_eq_some_iff.mp h
    exact dialogs.keyed key entry hentry
  | park key bytes =>
    obtain ⟨entry, hentry, rfl⟩ := Option.map_eq_some_iff.mp h
    exact dialogs.keyed key entry hentry
  | teardown key =>
    obtain ⟨entry, _, rfl⟩ := Option.map_eq_some_iff.mp h
    rfl

/-! ## the invariant -/

/-- The table holds the last local version of each dialog, and so does every
delta of it that may still be applied. -/
def Kept (s : Node) : Prop :=
  ∀ k last older, s.versions k = last :: older →
    s.machine.dialogs.find k = last ∧ ∀ delta ∈ s.outstanding, delta.key = k → delta.value = last

namespace Kept

open Node

variable {s s' : Node}

theorem noLostUpdate (h : Kept s) : s.NoLostUpdate := by
  intro k last older hv
  have hfind := (h k last older hv).1
  exact ⟨fun _ => hfind, fun _ => hfind⟩

theorem start (machine : DialogStateMachine) : Kept (.start machine) := by
  intro k last older hv
  contradiction

section

variable (h : Kept s)
include h

theorem mono (hmachine : s'.machine.dialogs = s.machine.dialogs)
    (hversions : s'.versions = s.versions) (hout : ∀ delta ∈ s'.outstanding, delta ∈ s.outstanding) :
    Kept s' := by
  intro k last older hv
  rw [hversions] at hv
  obtain ⟨hfind, hvalue⟩ := h k last older hv
  rw [hmachine]
  exact ⟨hfind, fun delta hmem => hvalue delta (hout delta hmem)⟩

theorem commit {delta : DialogDelta}
    (hfree : ∀ d ∈ s.outstanding, d.key ≠ delta.key) : Kept (s.commit delta) := by
  have hout : ∀ d ∈ (s.commit delta).outstanding, d ∈ s.outstanding ∨ d = delta := by
    intro d hd
    simp only [outstanding, Node.commit, List.mem_append, List.mem_singleton] at hd ⊢
    tauto
  intro k last older hv
  by_cases hk : k = delta.key
  · subst hk
    have hself : (s.commit delta).versions delta.key = delta.value :: s.versions delta.key :=
      Function.update_self ..
    rw [hself, List.cons.injEq] at hv
    obtain ⟨rfl, _⟩ := hv
    refine ⟨Keyed.find_apply_self .., ?_⟩
    intro d hd hdk
    obtain hd | rfl := hout d hd
    · exact absurd hdk (hfree d hd)
    · rfl
  · have hother : (s.commit delta).versions k = s.versions k := Function.update_of_ne hk ..
    rw [hother] at hv
    obtain ⟨hfind, hvalue⟩ := h k last older hv
    refine ⟨(Keyed.find_apply_ne _ (Ne.symm hk)).trans hfind, ?_⟩
    intro d hd hdk
    obtain hd | rfl := hout d hd
    · exact hvalue d hd hdk
    · exact absurd hdk.symm hk

theorem foreign {entry : Entry}
    (hfree : ∀ delta ∈ entry.payload.delta?, s.versions delta.key = []) :
    Kept { s with unapplied := s.unapplied ++ [entry] } := by
  have hout : ∀ d ∈ ({ s with unapplied := s.unapplied ++ [entry] } : Node).outstanding,
      d ∈ s.outstanding ∨ d ∈ deltas [entry] := by
    intro d hd
    rw [outstanding, DialogStateMachine.deltas_append] at hd
    simp only [outstanding, List.mem_append] at hd ⊢
    tauto
  intro k last older hv
  obtain ⟨hfind, hvalue⟩ := h k last older hv
  refine ⟨hfind, ?_⟩
  intro d hd hdk
  obtain hd | hd := hout d hd
  · exact hvalue d hd hdk
  · -- the entry's dialog has no local version
    obtain ⟨e, he, hed⟩ := List.mem_filterMap.mp hd
    obtain rfl := List.mem_singleton.mp he
    have hnone := hfree d hed
    rw [hdk, hv] at hnone
    contradiction

theorem apply {entry : Entry} {entries : List Entry} (hentries : s.unapplied = entry :: entries) :
    Kept { s with machine := s.machine.applyEntry entry, unapplied := entries } := by
  have hdeltas : deltas s.unapplied = deltas [entry] ++ deltas entries := by
    rw [hentries]
    exact DialogStateMachine.deltas_append [entry] entries
  intro k last older hv
  obtain ⟨hfind, hvalue⟩ := h k last older hv
  constructor
  · show (s.machine.applyEntry entry).dialogs.find k = last
    rw [DialogStateMachine.dialogs_applyEntry, Keyed.find_applyAll, hfind]
    cases hlast : lastFor k (deltas [entry]) with
    | none => rfl
    | some v =>
      obtain ⟨d, hd, hdk, rfl⟩ := mem_of_lastFor_eq_some hlast
      exact hvalue d (by simp [outstanding, hdeltas, hd]) hdk
  · intro d hd
    refine hvalue d ?_
    simp only [outstanding, hdeltas, List.mem_append] at hd ⊢
    tauto

/-- **Every step that meets the condition keeps the invariant.** -/
theorem step {depth : Nat} {a : NodeAction} (hok : OneAtATime s a)
    (hs : s.step depth a = some s') : Kept s' := by
  cases a with
  | change c =>
    simp only [Node.step] at hs
    split at hs
    · next delta hdelta =>
      rw [← Option.some.inj hs]
      refine h.commit ?_
      rw [LocalChange.key_of_delta hdelta]
      exact hok
    · rw [← Option.some.inj hs]
      exact h
  | replicate i =>
    simp only [Node.step] at hs
    split at hs
    · contradiction
    · next delta hdelta =>
      have hmem : delta ∈ s.changes := List.mem_of_getElem? hdelta
      have herase : ∀ d ∈ s.changes.eraseIdx i, d ∈ s.changes :=
        fun d hd => List.mem_of_mem_eraseIdx hd
      split at hs
      · rw [← Option.some.inj hs]
        refine h.mono rfl rfl ?_
        intro d hd
        simp only [outstanding, List.mem_append, List.mem_singleton] at hd ⊢
        grind
      · rw [← Option.some.inj hs]
        refine h.mono rfl rfl ?_
        intro d hd
        simp only [outstanding, List.mem_append] at hd ⊢
        grind
  | recv =>
    simp only [Node.step] at hs
    split at hs
    · next delta queue hproposer hqueue =>
      rw [← Option.some.inj hs]
      refine h.mono rfl rfl ?_
      intro d hd
      simp only [outstanding, hproposer, hqueue, Proposer.held, List.mem_append,
        List.mem_cons] at hd ⊢
      grind
    · contradiction
  | append logId =>
    simp only [Node.step] at hs
    split at hs
    · next delta hproposer =>
      rw [← Option.some.inj hs]
      refine h.mono rfl rfl ?_
      intro d hd
      rw [outstanding, DialogStateMachine.deltas_append] at hd
      simp only [outstanding, hproposer, Proposer.held, List.mem_append] at hd ⊢
      have hentry : deltas [⟨logId, .normal delta⟩] = [delta] := rfl
      rw [hentry] at hd
      grind
    · contradiction
  | reject =>
    simp only [Node.step] at hs
    split at hs
    · next delta hproposer =>
      rw [← Option.some.inj hs]
      refine h.mono rfl rfl ?_
      intro d hd
      simp only [outstanding, hproposer, Proposer.held, List.mem_append] at hd ⊢
      grind
    · contradiction
  | returned =>
    simp only [Node.step] at hs
    split at hs
    · next hproposer =>
      rw [← Option.some.inj hs]
      refine h.mono rfl rfl ?_
      intro d hd
      simp only [outstanding, hproposer, Proposer.held, List.mem_append] at hd ⊢
      exact hd
    · contradiction
  | foreign entry =>
    rw [← Option.some.inj hs]
    exact h.foreign hok
  | overwrite n =>
    rw [← Option.some.inj hs]
    refine h.mono rfl rfl ?_
    intro d hd
    have htake : ∀ d ∈ deltas (s.unapplied.take n), d ∈ deltas s.unapplied := by
      intro d hd
      exact ((List.take_sublist n s.unapplied).filterMap _).mem hd
    simp only [outstanding, List.mem_append] at hd ⊢
    grind
  | apply =>
    simp only [Node.step] at hs
    split at hs
    · next entry entries hentries =>
      rw [← Option.some.inj hs]
      exact h.apply hentries
    · contradiction
  | cancel =>
    simp only [Node.step] at hs
    split at hs
    · next hproposer =>
      rw [← Option.some.inj hs]
      refine h.mono rfl rfl ?_
      intro d hd
      simp only [outstanding, hproposer, Proposer.held, List.mem_append] at hd ⊢
      grind
    · contradiction

end

end Kept

/-! ## every run -/

/-- **No update is lost when dialogs are changed one change at a time.**  In
every state of every run in which a handler changes a dialog only when no delta
of it is outstanding, and nobody else changes this node's dialogs, the table
never goes back to an earlier local version and ends with the last one. -/
theorem no_lost_update_one_at_a_time (depth : Nat) (machine : DialogStateMachine)
    (as : List NodeAction) (s : Node) (hexec : exec (Node.step depth) (.start machine) as = some s)
    (hmeets : Meets (Node.step depth) OneAtATime (.start machine) as) : s.NoLostUpdate := by
  have hkept : Kept s := exec_invariant_of_meets (fun s a s' (h : Kept s) hok hs => h.step hok hs)
    hexec hmeets (Kept.start machine)
  exact hkept.noLostUpdate

/-- A node that holds one call. -/
def sampleMachine : DialogStateMachine := .new (.restore [sampleRecord "call-1" 1])

/-- An UPDATE without an offer, by its CSeq. -/
def sampleUpdate (cseq : UInt32) : LocalChange :=
  .inDialog ("call-1", "lt", "rt") ⟨"UPDATE", some "z9hG4bK-1", some cseq⟩ ⟨none, none⟩ none

/-- The second UPDATE comes when the first has been applied. -/
def spacedRun : List NodeAction :=
  [.change (sampleUpdate 2), .replicate 0, .recv, .append ⟨⟨1, 0⟩, 1⟩, .apply, .returned,
    .change (sampleUpdate 3), .replicate 0, .recv, .append ⟨⟨1, 0⟩, 2⟩, .apply]

theorem no_lost_update_spaced :
    ∃ s, exec (Node.step writeQueueDepth) (.start sampleMachine) spacedRun = some s ∧
      s.versions ("call-1", "lt", "rt") =
        [some (sampleRecord "call-1" 3), some (sampleRecord "call-1" 2)] ∧ s.NoLostUpdate := by
  have hrun : (exec (Node.step writeQueueDepth) (.start sampleMachine) spacedRun).map
      (fun s => s.versions ("call-1", "lt", "rt")) =
        some [some (sampleRecord "call-1" 3), some (sampleRecord "call-1" 2)] := by
    decide +kernel
  obtain ⟨s, hexec, hversions⟩ := Option.map_eq_some_iff.mp hrun
  have hmeets : Meets (Node.step writeQueueDepth) OneAtATime (.start sampleMachine) spacedRun := by
    decide +kernel
  exact ⟨s, hexec, hversions, no_lost_update_one_at_a_time _ _ spacedRun s hexec hmeets⟩

/-- The second UPDATE comes before the first has been applied. -/
def overlappingRun : List NodeAction :=
  [.change (sampleUpdate 2), .replicate 0, .change (sampleUpdate 3), .replicate 0, .recv,
    .append ⟨⟨1, 0⟩, 1⟩, .apply]

/-- Applying the first takes the dialog's CSeq from 3 back to 2. -/
theorem apply_reverts_dialog : ¬ ∀ (machine : DialogStateMachine) (as : List NodeAction) (s : Node),
      exec (Node.step writeQueueDepth) (.start machine) as = some s → s.NoLostUpdate := by
  intro h
  have hrun : (exec (Node.step writeQueueDepth) (.start sampleMachine) overlappingRun).map
      (fun s => (s.versions ("call-1", "lt", "rt"),
        s.machine.dialogs.find ("call-1", "lt", "rt"))) =
        some ([some (sampleRecord "call-1" 3), some (sampleRecord "call-1" 2)],
          some (sampleRecord "call-1" 2)) := by
    decide +kernel
  obtain ⟨s, hexec, hs⟩ := Option.map_eq_some_iff.mp hrun
  obtain ⟨hversions, hfind⟩ := Prod.mk.inj hs
  have hlost := (h sampleMachine overlappingRun s hexec _ _ _ hversions).2
  rw [hfind] at hlost
  exact absurd (hlost (by simp)) (by decide +kernel)

end SmithsNet.Raft
