import SmithsNet.Uas.Lifecycle

/-!
# SmithsNet.Uas.SideTables

The tables beside the dialog table: session timers, duration guards, the media
of each leg, bridges, retransmit loops and sessions.  Tearing a dialog down
takes its entries out of all of them, one after the other.

`side_tables_within`: in a run in which no dialog is torn down while a handler
has still to write an entry of it, and no handler takes up a leg whose dialog
is gone, every entry is of a dialog in the table whenever no handler is at work.
`entry_outlives_dialog`: the teardown of a bridged call runs on the worker of
the other call, and a handler of this one then writes an entry back.
-/

namespace SmithsNet.Uas.Calls

open Lib SmithsNet.Core Attach
open State (perform restore step)

inductive Table
  | sessionTimers
  | durationGuards
  | legMedia
  | bridges
  | retransmits
  | sessions

/-- The table has an entry of the dialog. -/
def State.Holds (s : State) : Table → DialogKey → Prop
  | .sessionTimers, key => key ∈ s.sessionTimers
  | .durationGuards, key => key ∈ s.durationGuards
  | .legMedia, key => key ∈ s.legMedia
  | .bridges, key => key ∈ s.bridges
  | .retransmits, key => key ∈ s.retransmits
  | .sessions, key => ∃ leg, (key, leg) ∈ s.sessions

/-- Every entry is of a dialog in the table. -/
def SideTablesWithin (s : State) : Prop := ∀ table key, s.Holds table key → key ∈ s.dialogs

/-! ## writing and clearing -/

/-- The operation writes an entry of this dialog, or leads to one that does. -/
def Op.writes (key : DialogKey) : Op → Bool
  | connect _ _ p => decide (p.dialogKey = key)
  | record k _ _ | install k _ _ | putMedia k _ | spawn2xx k | readGeneration k | armSession k _
  | armGuard k | compareMedia k _ | mediaMoved k _ | findPartner k _ _ => decide (k = key)
  | readPartner k _ p | rebuild k p => decide (k = key) || decide (p = key)
  | _ => false

/-- The operation clears the entry of this dialog in the table, or leads to one that does. -/
def Op.clears (key : DialogKey) : Table → Op → Bool
  | .retransmits, cancel2xx k => decide (k = key)
  | .sessionTimers, cancelSession k => decide (k = key)
  | .durationGuards, cancelGuard k => decide (k = key)
  | .legMedia, dropMedia k => decide (k = key)
  | .bridges, unbridge k _ _ => decide (k = key)
  | .sessions, unbridge k _ _ | .sessions, findBridged k _ _ _ | .sessions, dropSessions k _ =>
    decide (k = key)
  | _, _ => false

/-- A dialog leaves the table when nothing more will be written of it, and a
leg that is taken up is of a dialog that is there or about to be. -/
def Op.Tidy (s : State) (op : Op) : Prop :=
  (∀ key ∈ op.removes, key ∈ s.dialogs → ∀ h ∈ s.handlers, ∀ o ∈ h.ops, o.writes key = false) ∧
    ∀ key ∈ op.takes s, s.Alive key

instance (s : State) (op : Op) : Decidable (op.Tidy s) := inferInstanceAs (Decidable (_ ∧ _))

/-- Every operation carried out is tidy. -/
def TidyStep (s : State) (a : Action) : Prop := ∀ o ∈ s.opOf a, o.1.Tidy s

instance (s : State) (a : Action) : Decidable (TidyStep s a) :=
  inferInstanceAs (Decidable (∀ o ∈ s.opOf a, o.1.Tidy s))

/-! ## the invariant -/

structure SideInv (s : State) : Prop where
  /-- What is still to be written is of a dialog that is there or about to be. -/
  writing : ∀ key o, Script.Pending s.handlers o → o.writes key = true → s.Alive key
  /-- So is what has been written, or it is still to be cleared. -/
  held : ∀ table key, s.Holds table key →
    s.Alive key ∨ ∃ o, Script.Pending s.handlers o ∧ o.clears key table = true

variable {ok : Bool} {key : DialogKey} {op : Op} {c : String} {table : Table}

/-- An operation adds an entry only if it writes one, or its INVITE enters the dialog next. -/
theorem perform_holds {s : State} (h : (s.perform ok op).1.Holds table key) :
    s.Holds table key ∨ op.writes key = true ∨ ∃ o ∈ (s.perform ok op).2, o.enters key = true := by
  cases op with
  | bridgeWebrtc i | joinConference i =>
    by_cases hkey : i.key = key
    · exact Or.inr (Or.inr ⟨_, List.mem_singleton.mpr rfl, by simp [Op.enters, hkey]⟩)
    · left
      cases table <;> simpa [perform, State.Holds, Ne.symm hkey] using h
  | record k | install k | putMedia k | spawn2xx k | armSession k =>
    by_cases hkey : k = key
    · exact Or.inr (Or.inl (by simp [Op.writes, hkey]))
    · left
      cases table <;> simpa [perform, State.Holds, Ne.symm hkey] using h
  | armGuard k =>
    by_cases hkey : k = key
    · exact Or.inr (Or.inl (by simp [Op.writes, hkey]))
    · left
      simp only [perform] at h
      split at h <;> cases table <;> simpa [State.Holds, Ne.symm hkey] using h
  | unrecord k | cancel2xx k | cancelSession k | cancelGuard k | dropMedia k =>
    left
    cases table <;> first | exact h | exact (AList.mem_erase.mp h).2
  | unbridge k bye top =>
    left
    simp only [perform] at h
    split at h <;> cases table <;> first | exact h | exact (AList.mem_erase.mp h).2
  | retainBridges bid =>
    left
    cases table <;> first | exact h | exact (KeyMap.within_retain _ _).mem h
  | dropSessions k stops =>
    left
    cases table <;> first | exact h | exact h.imp fun _ => (KeyMap.within_retain _ _).mem
  | _ =>
    left
    simp only [perform] at h
    (try split at h) <;> (try split at h) <;> cases table <;> exact h

theorem perform_clears {s : State}
    (hop : op.clears key table = true) (h : (s.perform ok op).1.Holds table key) :
    ∃ o ∈ (s.perform ok op).2, o.clears key table = true := by
  cases op with
  | cancel2xx k | cancelSession k | cancelGuard k | dropMedia k =>
    cases table <;> simp_all [Op.clears, perform, State.Holds]
  | unbridge k bye top =>
    cases table with
    | bridges =>
      have hkey : k = key := by simpa [Op.clears] using hop
      subst hkey
      simp only [perform] at h
      split at h
      · exact absurd h (by simp [State.Holds])
      · next hnone => exact absurd h (AList.lookup_eq_none.mp hnone)
    | sessions =>
      simp only [perform]
      split
      · exact ⟨_, List.mem_singleton.mpr rfl, hop⟩
      · exact ⟨.dropSessions k true, by simp, hop⟩
    | _ => contradiction
  | findBridged k bid bye top =>
    cases table with
    | sessions => exact ⟨.dropSessions k true, by simp [perform], hop⟩
    | _ => contradiction
  | dropSessions k stops =>
    cases table with
    | sessions =>
      have hkey : k = key := by simpa [Op.clears] using hop
      subst hkey
      obtain ⟨leg, hleg⟩ := h
      obtain ⟨v, hv⟩ := Option.isSome_iff_exists.mp (AList.lookup_isSome.mpr hleg)
      have hkept := (KeyMap.lookup_retain hv).2
      simp at hkept
    | _ => contradiction
  | _ => cases table <;> contradiction

/-- Writing is handed on by what writes already, and begins with what is there. -/
theorem perform_writes {s : State} {o : Op} (htidy : op.Tidy s)
    (ho : o ∈ (s.perform ok op).2) (hwrites : o.writes key = true) :
    op.writes key = true ∨ s.Alive key ∨ key ∈ (s.perform ok op).1.dialogs ∨
      ∃ o' ∈ (s.perform ok op).2, o'.enters key = true := by
  cases op with
  | rendezvousPair i room leg =>
    simp only [perform] at ho
    split at ho
    · next p hp =>
      obtain rfl := List.mem_singleton.mp ho
      have hkey : p.dialogKey = key := by simpa [Op.writes] using hwrites
      exact Or.inr (Or.inl (hkey ▸ htidy.2 _ (Option.map_eq_some_iff.mpr ⟨p, hp, rfl⟩)))
    · obtain rfl := List.mem_singleton.mp ho
      contradiction
  | connect i room p =>
    have henters : ∀ ops : List Op, .establish i ∈ ops → i.key = key →
        ∃ o' ∈ ops, o'.enters key = true := by
      intro ops hmem hkey
      exact ⟨_, hmem, by simp [Op.enters, hkey]⟩
    simp only [perform] at ho ⊢
    split at ho
    · split at ho
      all_goals
        simp only [List.mem_cons, List.not_mem_nil, or_false] at ho
        obtain rfl | rfl | rfl := ho
        · exact Or.inl hwrites
        · have hkey : i.key = key := by simpa [Op.writes] using hwrites
          refine Or.inr (Or.inr (Or.inr (henters _ ?_ hkey)))
          simp_all
        · contradiction
    · obtain rfl := List.mem_singleton.mp ho
      contradiction
  | establish i =>
    refine Or.inr (Or.inr (Or.inl ?_))
    have hkey : i.key = key := by
      obtain ⟨m, _, rfl⟩ | rfl | ⟨_, rfl⟩ | rfl := Invite.mem_establishOps.mp ho <;>
        simpa [Op.writes] using hwrites
    simp [perform, hkey]
  | lookUp k r =>
    simp only [perform] at ho
    split at ho
    · next hmem =>
      have hkey : k = key := by
        obtain ⟨m, _, rfl⟩ | ⟨_, rfl⟩ | ⟨_, rfl⟩ | ⟨_, rfl⟩ := Refresh.mem_ops.mp ho <;>
          simp_all [Op.writes]
      exact Or.inr (Or.inl (Or.inl (hkey ▸ hmem)))
    · contradiction
  | findPartner k media bid =>
    simp only [perform] at ho
    split at ho
    · next e he =>
      obtain rfl := List.mem_singleton.mp ho
      simp only [Op.writes, Bool.or_eq_true, decide_eq_true_eq] at hwrites ⊢
      obtain hkey | hkey := hwrites
      · exact Or.inl hkey
      · exact Or.inr (Or.inl (hkey ▸ htidy.2 _ (Option.map_eq_some_iff.mpr ⟨e, he, rfl⟩)))
    · contradiction
  | _ =>
    left
    simp only [perform] at ho
    (try split at ho) <;> (try split at ho) <;> simp at ho
    all_goals grind [Op.writes]

theorem teardownOps_clears (key : DialogKey) (d : Dialog) (bye top : Bool) (table : Table) :
    ∃ o ∈ teardownOps key d bye top, o.clears key table = true := by
  cases table with
  | sessionTimers => exact ⟨.cancelSession key, by simp, by simp [Op.clears]⟩
  | durationGuards => exact ⟨.cancelGuard key, by simp, by simp [Op.clears]⟩
  | legMedia => exact ⟨.dropMedia key, by simp, by simp [Op.clears]⟩
  | retransmits => exact ⟨.cancel2xx key, by simp, by simp [Op.clears]⟩
  | bridges | sessions => exact ⟨.unbridge key bye top, by simp, by simp [Op.clears]⟩

/-! ## the steps -/

variable {s s' : State}

theorem SideInv.run (h : SideInv s) {n : Nat} {rest : List Op}
    (hn : s.handlers[n]? = some ⟨c, op :: rest⟩) (htidy : op.Tidy s) (ok : Bool) :
    SideInv (s.ran ok n c op rest) := by
  -- a dialog for which something is still to be written is not removed
  have hwriting : ∀ key o, Script.Pending s.handlers o → o.writes key = true →
      State.Alive (s.ran ok n c op rest) key := by
    rintro key o ⟨g, hg, ho⟩ hwrites
    refine (h.writing key o ⟨g, hg, ho⟩ hwrites).run hn ok ?_
    rintro bye top rfl hmem
    rw [htidy.1 key rfl hmem g hg o ho] at hwrites
    contradiction
  have hnew : ∀ key, (∃ o ∈ (s.perform ok op).2, o.enters key = true) →
      State.Alive (s.ran ok n c op rest) key := by
    rintro key ⟨o, ho, henters⟩
    obtain ⟨g, hg, ho⟩ : Script.Pending (s.handlers.set n ⟨c, (s.perform ok op).2 ++ rest⟩) o :=
      Script.pending_new hn ho
    exact Or.inr ⟨g, hg, o, ho, henters⟩
  constructor
  · intro key o ho hwrites
    obtain ho | ho := Script.pending_set hn ho
    · exact hwriting key o ho hwrites
    · obtain hop | halive | hmem | henters := perform_writes htidy ho hwrites
      · exact hwriting key op (Script.pending_head hn) hop
      · refine halive.run hn ok ?_
        rintro bye top rfl
        simp only [perform] at ho
        split at ho
        · obtain rfl | rfl | rfl | rfl | ⟨room, _, rfl⟩ | rfl := mem_teardownOps.mp ho <;> contradiction
        · contradiction
      · exact Or.inl hmem
      · exact hnew key henters
  · intro table key hheld
    obtain hheld' | hop | henters := perform_holds hheld
    · obtain halive | ⟨o, ho, hclears⟩ := h.held table key hheld'
      · by_cases hremove : (∃ bye top, op = .remove key bye top) ∧ key ∈ s.dialogs
        · -- the dialog is removed, and all its entries are to be cleared
          obtain ⟨⟨bye, top, rfl⟩, hmem⟩ := hremove
          obtain ⟨d, hd⟩ := Option.isSome_iff_exists.mp (AList.lookup_isSome.mpr hmem)
          obtain ⟨o, ho, hclears⟩ := teardownOps_clears key d bye top table
          refine Or.inr ⟨o, Script.pending_new hn ?_, hclears⟩
          simpa only [perform, hd] using ho
        · refine Or.inl (halive.run hn ok ?_)
          rintro bye top rfl hmem
          exact hremove ⟨⟨bye, top, rfl⟩, hmem⟩
      · obtain rfl | ho := Script.pending_of_set hn (s.perform ok op).2 ho
        · obtain ⟨o', ho', hclears'⟩ := perform_clears hclears hheld
          exact Or.inr ⟨o', Script.pending_new hn ho', hclears'⟩
        · exact Or.inr ⟨o, ho, hclears⟩
    · exact Or.inl (hwriting key op (Script.pending_head hn) hop)
    · exact Or.inl (hnew key henters)

theorem Beside.holds (h : Beside s s') (hheld : s'.Holds table key) : s.Holds table key := by
  cases table with
  | retransmits => exact h.retransmits key hheld
  | sessionTimers => simpa only [State.Holds, h.sessionTimers] using hheld
  | durationGuards => simpa only [State.Holds, h.durationGuards] using hheld
  | legMedia => simpa only [State.Holds, h.legMedia] using hheld
  | bridges => simpa only [State.Holds, h.bridges] using hheld
  | sessions => simpa only [State.Holds, h.sessions] using hheld

theorem SideInv.append (h : SideInv s) (hbeside : Beside s s') {ops : List Op}
    (hhandlers : s'.handlers = s.handlers ++ [⟨c, ops⟩])
    (hops : ∀ o ∈ ops, ∀ key, o.writes key = false) : SideInv s' := by
  constructor
  · intro key o ho hwrites
    rw [hhandlers] at ho
    obtain ho | ho := Script.pending_append.mp ho
    · exact (h.writing key o ho hwrites).append _ hbeside.dialogs hhandlers
    · rw [hops o ho key] at hwrites
      contradiction
  · intro table key hheld
    obtain halive | ⟨o, ho, hclears⟩ := h.held table key (hbeside.holds hheld)
    · exact Or.inl (halive.append _ hbeside.dialogs hhandlers)
    · refine Or.inr ⟨o, ?_, hclears⟩
      rw [hhandlers]
      exact Script.pending_append.mpr (Or.inl ho)

theorem SideInv.idle (h : SideInv s) (hbeside : Beside s s') (hhandlers : s'.handlers = s.handlers) :
    SideInv s' := by
  constructor
  · intro key o ho hwrites
    rw [hhandlers] at ho
    exact (h.writing key o ho hwrites).of_same hbeside.dialogs hhandlers
  · intro table key hheld
    rw [hhandlers]
    exact (h.held table key (hbeside.holds hheld)).imp_left fun halive =>
      halive.of_same hbeside.dialogs hhandlers

theorem SideInv.step (h : SideInv s) {a : Action} (hok : TidyStep s a)
    (hstep : s.step a = some s') : SideInv s' := by
  cases State.moves hstep with
  | run hn hop hs' =>
    subst hs'
    exact h.run hn (hok _ hop) _
  | invite hnew hbeside hhandlers =>
    refine h.append hbeside hhandlers fun o ho key => ?_
    obtain ⟨o', hops, ho'⟩ := Invite.ops_eq _
    rw [hops, List.mem_singleton] at ho
    subst ho
    obtain rfl | rfl | rfl | ⟨room, leg, _, rfl⟩ := ho' <;> rfl
  | request hop hbeside hhandlers =>
    refine h.append hbeside hhandlers fun o ho key => ?_
    obtain rfl := List.mem_singleton.mp ho
    cases o <;> first | rfl | contradiction
  | idle hbeside hhandlers => exact h.idle hbeside hhandlers

/-! ## the result -/

/-- **No entry outlives its dialog.**  In every run in which a dialog leaves
the table only when no handler has still to write an entry of it, and in which
a leg that is taken up is of a dialog that is there or about to be: whenever no
handler is at work, every entry of the six tables is of a dialog in the table. -/
theorem side_tables_within (guarded : Bool) (records : List DialogRecord) (acts : List Action)
    (s : State) (hexec : exec step (restore guarded records) acts = some s)
    (htidy : Meets step TidyStep (restore guarded records) acts)
    (hquiet : Script.Quiet s.handlers) : SideTablesWithin s := by
  have h0 : SideInv (restore guarded records) := by
    constructor
    · simp [restore, Script.Pending]
    · intro table key hheld
      cases table <;> simp [restore, State.Holds] at hheld
  have h : SideInv s :=
    exec_invariant_of_meets (fun _ _ _ h hok hstep => h.step hok hstep) hexec htidy h0
  intro table key hheld
  obtain halive | ⟨o, ho, _⟩ := h.held table key hheld
  · exact halive.of_quiet hquiet
  · exact absurd ho hquiet.not_pending

/-- Two bridged calls, of which one moves its media, and a third call that comes and goes. -/
def movedCalls : List Action :=
  pairedCalls ++
    .refresh ("a", "1", "2") (.moving true) ::
      Action.runs 2 12 ++
    .invite (.into "s" "c" 4 .pcma) :: Action.runs 3 5 ++ .bye ("c", "1", "2") :: Action.runs 4 8

/-- The first two are bridged anew, and nothing is left of the third. -/
theorem side_tables_within_moved :
    ∃ s, exec step (restore true []) movedCalls = some s ∧
      s.torn = [("c", "1", "2")] ∧ s.bridges.lookup ("a", "1", "2") = some 1 ∧
      s.bridges.lookup ("b", "1", "2") = some 1 ∧ SideTablesWithin s := by
  have hrun : (exec step (restore true []) movedCalls).map
      (fun s => (s.torn, s.bridges.lookup ("a", "1", "2"), s.bridges.lookup ("b", "1", "2"),
        decide (Script.Quiet s.handlers))) = some ([("c", "1", "2")], some 1, some 1, true) := by
    decide +kernel
  obtain ⟨s, hexec, hs⟩ := Option.map_eq_some_iff.mp hrun
  simp only [Prod.mk.injEq, decide_eq_true_eq] at hs
  obtain ⟨htorn, ha, hb, hquiet⟩ := hs
  exact ⟨s, hexec, htorn, ha, hb,
    side_tables_within true [] movedCalls s hexec (by decide +kernel) hquiet⟩

/-- The second call is sent an UPDATE with a session timer; its handler has
found the dialog when a BYE ends the first call, and with it the second.  Then
the handler arms the timer. -/
def racedCalls : List Action :=
  pairedCalls ++ .refresh ("b", "1", "2") ⟨false, none, true⟩ :: Action.runs 2 1 ++
    .bye ("a", "1", "2") :: Action.runs 3 19 ++ Action.runs 2 2

/-- The timer outlives its dialog. -/
theorem entry_outlives_dialog :
    ¬ ∀ (guarded : Bool) (records : List DialogRecord) (acts : List Action) (s : State),
      exec step (restore guarded records) acts = some s → Script.Quiet s.handlers →
      SideTablesWithin s := by
  intro h
  have hrun : (exec step (restore false []) racedCalls).map
      (fun s => (decide (Script.Quiet s.handlers), decide (("b", "1", "2") ∈ s.sessionTimers),
        decide (("b", "1", "2") ∈ s.dialogs))) = some (true, true, false) := by
    decide +kernel
  obtain ⟨s, hexec, hs⟩ := Option.map_eq_some_iff.mp hrun
  simp only [Prod.mk.injEq, decide_eq_true_eq, decide_eq_false_iff_not] at hs
  obtain ⟨hquiet, htimer, hgone⟩ := hs
  exact hgone (h false [] racedCalls s hexec hquiet .sessionTimers ("b", "1", "2") htimer)

end SmithsNet.Uas.Calls
