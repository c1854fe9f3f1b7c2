import SmithsNet.Uas.Pairs

/-!
# SmithsNet.Uas.Orphans

Sessions beside the bridges (`smiths-core/src/dialog_sessions.rs`): a conference
participant is filed under its dialog, a transcoded pair under both.  The table
hands back what is taken out of it, and whoever takes it out has to stop it.

`no_session_orphaned`: in a run in which a renegotiation takes out only sessions
that have been stopped, every session that is no longer filed has been stopped,
and all have been when the last dialog is gone.
`session_orphaned`: a participant moves its media.
-/

namespace SmithsNet.Uas.Calls

open Lib SmithsNet.Core Attach State Op
open Calls.Action (runs)

/-- A renegotiation only takes out sessions that have been stopped. -/
def Op.Careful (s : State) : Op → Prop
  | dropSessions key false => ∀ n ∈ s.sessionsOf key, n ∈ s.stopped
  | _ => True

instance (s : State) (op : Op) : Decidable (op.Careful s) :=
  match op with
  | .dropSessions _ false => inferInstanceAs (Decidable (∀ _ ∈ _, _))
  | .dropSessions _ true => isTrue trivial
  | .bridgeWebrtc _ | .joinConference _ | .rendezvousPair _ _ _ | .connect _ _ _ | .repark _ _
  | .record _ _ _ | .install _ _ _ | .establish _ | .putMedia _ _ | .spawn2xx _ | .readGeneration _
  | .armSession _ _ | .armGuard _ | .lookUp _ _ | .compareMedia _ _ | .mediaMoved _ _
  | .findPartner _ _ _ | .readPartner _ _ _ | .rebuild _ _ | .unrecord _ | .confirm _ | .checkAck _
  | .checkExpired _ _ _ | .checkDuration _ | .remove _ _ _ | .cancel2xx _ | .cancelSession _
  | .cancelGuard _ | .dropMedia _ | .unpark _ _ | .unbridge _ _ _ | .findBridged _ _ _ _
  | .retainBridges _ | .sendBye _ => isTrue trivial

def CarefulStep (s : State) (a : Action) : Prop := ∀ o ∈ s.opOf a, o.1.Careful s

instance (s : State) (a : Action) : Decidable (CarefulStep s a) :=
  inferInstanceAs (Decidable (∀ o ∈ s.opOf a, o.1.Careful s))

/-- The session is in the table. -/
def State.Filed (s : State) (n : Nat) : Prop := ∃ k, s.sessions.lookup k = some n

/-! ## each place is filled once -/

/-- How often the operation may yet file a session in the place. -/
def Op.files (key : DialogKey) (leg : Nat) : Op → Nat
  | joinConference i => if i.key = key ∧ leg = 0 then 1 else 0
  | rendezvousPair i _ _ => if i.key = key then 1 else 0
  | connect i _ p =>
    (if i.key = key ∧ leg = 1 then 1 else 0) + if p.dialogKey = key ∧ leg = 0 then 1 else 0
  | repark _ p => if p.dialogKey = key ∧ leg = 0 then 1 else 0
  | install k l _ => if k = key ∧ l = leg then 1 else 0
  | _ => 0

/-- The place is filled, or a leg waits that will fill it, as a number. -/
def State.places (s : State) (key : DialogKey) (leg : Nat) : Nat :=
  (if leg = 0 then s.parkings key else 0) + if (key, leg) ∈ s.sessions then 1 else 0

attribute [local instance] lawfulBEq_dialogKey

def FiledOnce (s : State) : Prop := ∀ key leg,
  Script.weigh (files key leg) s.handlers + s.places key leg ≤ if key ∈ s.issued then 1 else 0

theorem places_insert (s : State) (k : DialogKey) (l n : Nat) (key : DialogKey) (leg : Nat) :
    (if (key, leg) ∈ s.sessions.insert (k, l) n then 1 else 0) ≤
      (if k = key ∧ l = leg then 1 else 0) + if (key, leg) ∈ s.sessions then 1 else 0 := by
  simp only [AList.mem_insert, Prod.mk.injEq]
  grind

theorem perform_files (s : State) (ok : Bool) (op : Op) (key : DialogKey) (leg : Nat) :
    total (files key leg) (s.perform ok op).2 + (s.perform ok op).1.places key leg ≤
      op.files key leg + s.places key leg := by
  have hcount : ∀ room, KeyMap.countVals (fun q : PendingLeg => decide (q.dialogKey = key))
      (s.pending.erase room) ≤ s.parkings key := fun room => KeyMap.countVals_erase_le _ room s.pending
  cases op with
  | joinConference i =>
    have hplace := places_insert s i.key 0 s.nextSession key leg
    simp only [perform, files, places, State.parkings, total_cons, total_nil] at hplace ⊢
    grind
  | install k l n =>
    have hplace := places_insert s k l n key leg
    simp only [perform, files, places, State.parkings, total_nil] at hplace ⊢
    grind
  | rendezvousPair i room waiting =>
    simp only [perform]
    split
    · next p hp =>
      have herase := KeyMap.countVals_erase (fun q : PendingLeg => decide (q.dialogKey = key)) hp
      simp only [decide_eq_true_eq] at herase
      simp only [places, State.parkings, files, total_cons, total_nil]
      grind
    · have hroom := hcount room
      simp only [places, State.parkings, files, total_cons, total_nil,
        KeyMap.countVals_insert, decide_eq_true_eq] at hroom ⊢
      grind
  | connect i room p =>
    simp only [perform]
    split
    · split
      all_goals
        simp only [places, State.parkings, files, total_cons, total_nil]
        grind
    · simp only [files, total_cons, total_nil]
      omega
  | repark room p =>
    have hroom := hcount room
    simp only [perform, places, State.parkings, files, total_nil,
      KeyMap.countVals_insert, decide_eq_true_eq] at hroom ⊢
    grind
  | unpark k room =>
    have hroom := hcount room
    simp only [perform]
    split
    · split
      · simp only [places, State.parkings, total_nil] at hroom ⊢
        grind
      · simp
    · simp
  | dropSessions k stops =>
    have hsub : (key, leg) ∈ KeyMap.retain (fun e _ => decide (e.1 ≠ k)) s.sessions →
        (key, leg) ∈ s.sessions := (KeyMap.within_retain _ _).mem
    simp only [perform, places, State.parkings, total_nil]
    grind
  | _ =>
    simp only [perform]
    (try split) <;> (try split) <;>
      simp [files, places, State.parkings, elim_zero, Function.comp_def]

variable {s s' : State}

variable {key : DialogKey} {rest : List Op} {n : Nat} {op : Op} {c : String}

section

variable (h : FiledOnce s)
include h

theorem FiledOnce.run (hn : s.handlers[n]? = some ⟨c, op :: rest⟩) (ok : Bool) :
    FiledOnce (s.ran ok n c op rest) := by
  intro key leg
  have hold := h key leg
  have hmove := perform_files s ok op key leg
  have hweigh : Script.weigh (files key leg) (s.handlers.set n ⟨c, (s.perform ok op).2 ++ rest⟩) +
      op.files key leg =
        Script.weigh (files key leg) s.handlers + total (files key leg) (s.perform ok op).2 :=
    Script.weigh_set hn _
  rw [State.withHandlers_issued, (perform_frame s ok op).1]
  simp only [places, State.parkings, State.withHandlers_handlers, State.withHandlers_pending,
    State.withHandlers_sessions] at hold hmove ⊢
  omega

theorem FiledOnce.append (hbeside : Beside s s')
    (hhandlers : s'.handlers = s.handlers ++ [⟨c, [op]⟩]) (hop : ∀ key leg, op.files key leg ≤ 1 ∧
      (0 < op.files key leg → key ∉ s.issued ∧ key ∈ s'.issued)) : FiledOnce s' := by
  intro key leg
  have hold := h key leg
  have hweigh : Script.weigh (files key leg) s'.handlers =
      Script.weigh (files key leg) s.handlers + op.files key leg := by
    rw [hhandlers, Script.weigh_append]
    simp
  rw [hweigh, places, State.parkings, hbeside.pending, hbeside.sessions]
  simp only [places, State.parkings] at hold
  obtain ⟨hle, hnew⟩ := hop key leg
  obtain hzero | hpos := Nat.eq_zero_or_pos (op.files key leg)
  · by_cases hissued : key ∈ s.issued
    · rw [if_pos hissued] at hold
      rw [if_pos (hbeside.issued key hissued)]
      omega
    · rw [if_neg hissued] at hold
      omega
  · obtain ⟨hnot, hmem⟩ := hnew hpos
    rw [if_neg hnot] at hold
    rw [if_pos hmem]
    omega

theorem FiledOnce.idle (hbeside : Beside s s')
    (hhandlers : s'.handlers = s.handlers) : FiledOnce s' := by
  intro key leg
  have hold := h key leg
  rw [hhandlers, places, State.parkings, hbeside.pending, hbeside.sessions]
  simp only [places, State.parkings] at hold
  by_cases hissued : key ∈ s.issued
  · rw [if_pos hissued] at hold
    rwa [if_pos (hbeside.issued key hissued)]
  · rw [if_neg hissued] at hold
    omega

theorem FiledOnce.free (hop : Script.Pending s.handlers op)
    {leg : Nat} (hfiles : op.files key leg = 1) : (key, leg) ∉ s.sessions := by
  intro hmem
  have hle : op.files key leg ≤ Script.weigh (files key leg) s.handlers := Script.le_weigh hop
  have honce := h key leg
  have hbound : (if key ∈ s.issued then 1 else 0) ≤ 1 := by split <;> simp
  rw [places, if_pos hmem] at honce
  omega

end

/-! ## what happens to the sessions -/

/-- Everything an operation does to the sessions. -/
inductive Sessions (s : State) (op : Op) (s' : State) : Prop
  | same (hsessions : s'.sessions = s.sessions) (hinstalled : s'.installed = s.installed)
      (hstopped : s'.stopped = s.stopped)
  | file (key : DialogKey) (leg n : Nat) (hfiles : op.files key leg = 1)
      (hsessions : s'.sessions = s.sessions.insert (key, leg) n)
      (hinstalled : s'.installed = s.installed ++ [n]) (hstopped : s'.stopped = s.stopped)
  | drop (key : DialogKey) (stops : Bool) (hop : op = .dropSessions key stops)
      (hsessions : s'.sessions = KeyMap.retain (fun k _ => decide (k.1 ≠ key)) s.sessions)
      (hinstalled : s'.installed = s.installed)
      (hstopped : s'.stopped = s.stopped ++ if stops then s.sessionsOf key else [])

theorem perform_sessions (s : State) (ok : Bool) (op : Op) : Sessions s op (s.perform ok op).1 := by
  cases op with
  | joinConference i => exact .file i.key 0 s.nextSession (by simp [files]) rfl rfl rfl
  | install k l n => exact .file k l n (by simp [files]) rfl rfl rfl
  | dropSessions k stops => exact .drop k stops rfl rfl rfl rfl
  | _ =>
    simp only [perform]
    (try split) <;> (try split) <;> exact .same rfl rfl rfl

theorem mem_sessionsOf : n ∈ s.sessionsOf key ↔ ∃ leg, s.sessions.lookup (key, leg) = some n := by
  unfold State.sessionsOf
  constructor
  · intro h
    obtain ⟨⟨⟨k, leg⟩, m⟩, he, rfl⟩ := List.mem_map.mp h
    obtain ⟨hmem, hkey⟩ := List.mem_filter.mp he
    obtain rfl : k = key := by simpa using hkey
    exact ⟨leg, AList.mem_lookup_iff.mpr hmem⟩
  · rintro ⟨leg, hleg⟩
    exact List.mem_map.mpr ⟨⟨(key, leg), n⟩, List.mem_filter.mpr ⟨AList.mem_lookup_iff.mp hleg, by simp⟩, rfl⟩

theorem lookup_kept (hfiled : FiledOnce s) (hop : Script.Pending s.handlers op)
    (hcareful : op.Careful s) (hs : Sessions s op s') {k : DialogKey × Nat}
    (h : s.sessions.lookup k = some n) : s'.sessions.lookup k = some n ∨ n ∈ s'.stopped := by
  cases hs with
  | same hsessions _ _ => exact .inl (by rw [hsessions, h])
  | file key leg m hfiles hsessions _ _ =>
    have hne : k ≠ (key, leg) := by
      rintro rfl
      exact hfiled.free hop hfiles (AList.lookup_isSome.mp (by rw [h]; rfl))
    left
    rw [hsessions, AList.lookup_insert_ne hne, h]
  | drop key stops hop hsessions _ hstopped =>
    by_cases hkey : k.1 = key
    · right
      have hmem : n ∈ s.sessionsOf key := mem_sessionsOf.mpr ⟨k.2, by rw [← hkey]; exact h⟩
      rw [hstopped]
      cases stops with
      | true => exact List.mem_append_right _ hmem
      | false =>
        subst hop
        exact List.mem_append_left _ (hcareful n hmem)
    · left
      rw [hsessions]
      exact KeyMap.lookup_retain_of_accepted h (by simpa using hkey)

theorem stopped_kept (hs : Sessions s op s') {n : Nat} (h : n ∈ s.stopped) : n ∈ s'.stopped := by
  cases hs with
  | same _ _ hstopped => rwa [hstopped]
  | file _ _ _ _ _ _ hstopped => rwa [hstopped]
  | drop _ _ _ _ _ hstopped =>
    rw [hstopped]
    exact List.mem_append_left _ h

/-! ## the scripts that file a pair -/

/-- The rest of a script that files a transcoded session. -/
inductive Filing : List Op → Prop
  | both (key : DialogKey) (n : Nat) (i : Invite) :
      Filing [.install key 0 n, .install i.key 1 n, .establish i]
  | second (n : Nat) (i : Invite) : Filing [.install i.key 1 n, .establish i]

def Op.isInstall : Op → Bool
  | install _ _ _ => true
  | _ => false

theorem perform_install {s : State} {ok : Bool} {o : Op} (ho : o ∈ (s.perform ok op).2)
    (hinstall : o.isInstall = true) :
    (∃ i room p, op = .connect i room p) ∧ Filing (s.perform ok op).2 := by
  cases op with
  | connect i room p =>
    refine ⟨⟨i, room, p, rfl⟩, ?_⟩
    simp only [perform] at ho ⊢
    cases ok with
    | false =>
      obtain rfl : o = .repark room p := by simpa using ho
      contradiction
    | true =>
      cases hm : mismatch p.audioCodec i.codec with
      | none =>
        simp only [hm, if_true, List.mem_cons, List.not_mem_nil, or_false] at ho
        obtain rfl | rfl | rfl := ho <;> contradiction
      | some codecs => exact .both _ _ _
  | establish i =>
    obtain ⟨m, _, rfl⟩ | rfl | ⟨_, rfl⟩ | rfl := Invite.mem_establishOps.mp ho <;> contradiction
  | lookUp k r =>
    simp only [perform] at ho
    split at ho
    · obtain ⟨m, _, rfl⟩ | ⟨_, rfl⟩ | ⟨_, rfl⟩ | ⟨_, rfl⟩ := Refresh.mem_ops.mp ho <;> contradiction
    · contradiction
  | remove k bye top =>
    simp only [perform] at ho
    split at ho
    · obtain rfl | rfl | rfl | rfl | ⟨room, _, rfl⟩ | rfl := mem_teardownOps.mp ho <;> contradiction
    · contradiction
  | unbridge k bye top =>
    simp only [perform] at ho
    split at ho
    · obtain rfl := List.mem_singleton.mp ho
      contradiction
    · obtain rfl | ⟨_, rfl⟩ | ⟨_, p, _, rfl⟩ := mem_finishOps.mp ho <;> contradiction
  | findBridged k bid bye top =>
    simp only [perform, List.mem_append, List.mem_singleton] at ho
    obtain rfl | ho := ho
    · contradiction
    · obtain rfl | ⟨_, rfl⟩ | ⟨_, p, _, rfl⟩ := mem_finishOps.mp ho <;> contradiction
  | _ =>
    simp only [perform] at ho
    (try split at ho) <;> (try split at ho) <;> simp at ho
    all_goals grind [Op.isInstall]

def FilingScripts (s : State) : Prop :=
  ∀ h ∈ s.handlers, (∃ o ∈ h.ops, o.isInstall = true) → Filing h.ops

theorem FilingScripts.run (h : FilingScripts s) (hlife : Life s)
    (hn : s.handlers[n]? = some ⟨c, op :: rest⟩) (ok : Bool) :
    FilingScripts (s.ran ok n c op rest) := by
  have hmem := List.mem_of_getElem? hn
  rintro g hg ⟨o, ho, hinstall⟩
  obtain hg | rfl := List.mem_or_eq_of_mem_set hg
  · exact h g hg ⟨o, ho, hinstall⟩
  · dsimp only at ho ⊢
    obtain ho | ho := List.mem_append.mp ho
    · -- a leg is connected: the INVITE's operation is the last of its script
      obtain ⟨⟨i, room, p, rfl⟩, hfiling⟩ := perform_install ho hinstall
      have hlast := hlife.attaching _ hmem ⟨_, List.mem_cons_self, i.key, by simp [Op.brings]⟩
      obtain rfl : rest = [] := rest_of_attaching hlast rfl
      rwa [List.append_nil]
    · have hold := h _ hmem ⟨o, List.mem_cons_of_mem _ ho, hinstall⟩
      generalize hops : op :: rest = ops at hold
      cases hold with
      | both key m i =>
        obtain ⟨rfl, rfl⟩ := List.cons.inj hops
        exact .second m i
      | second m i =>
        obtain ⟨rfl, rfl⟩ := List.cons.inj hops
        obtain rfl := List.mem_singleton.mp ho
        contradiction

/-! ## the invariant -/

/-- The operation stops the sessions of this dialog, or leads to one that does. -/
def Op.stops (key : DialogKey) : Op → Bool
  | unbridge k _ _ | findBridged k _ _ _ | dropSessions k true => decide (k = key)
  | _ => false

/-- Someone will stop what is filed under the dialog. -/
def State.Kept (s : State) (key : DialogKey) : Prop :=
  s.Alive key ∨ ∃ o, Script.Pending s.handlers o ∧ o.stops key = true

/-- The session is, or is about to be, filed where it will be stopped. -/
def State.Anchored (s : State) (n : Nat) : Prop :=
  (∃ key, Script.Pending s.handlers (.install key 1 n)) ∨
    ∃ key leg, s.sessions.lookup (key, leg) = some n ∧ s.Kept key

structure StopInv (s : State) : Prop where
  filed : FiledOnce s
  scripts : FilingScripts s
  kept : ∀ n ∈ s.installed, n ∈ s.stopped ∨ s.Filed n
  anchored : ∀ n ∈ s.installed, n ∈ s.stopped ∨ s.Anchored n

theorem perform_stops (s : State) (ok : Bool) (hop : op.stops key = true) :
    op = .dropSessions key true ∨ ∃ o ∈ (s.perform ok op).2, o.stops key = true := by
  have hfinish : ∀ bye top partner, ∃ o ∈ finishOps key bye top partner, o.stops key = true := by
    intro bye top partner
    exact ⟨.dropSessions key true, by simp, by simp [Op.stops]⟩
  cases op with
  | unbridge k bye top =>
    obtain rfl : k = key := by simpa [Op.stops] using hop
    right
    simp only [perform]
    split
    · exact ⟨_, List.mem_singleton.mpr rfl, by simp [Op.stops]⟩
    · exact hfinish _ _ _
  | findBridged k bid bye top =>
    obtain rfl : k = key := by simpa [Op.stops] using hop
    right
    obtain ⟨o, ho, hstops⟩ :=
      hfinish bye top ((s.bridges.entries.find? fun e => e.2 = bid).map Sigma.fst)
    exact ⟨o, List.mem_append_right _ ho, hstops⟩
  | dropSessions k stops =>
    cases stops with
    | false => contradiction
    | true =>
      obtain rfl : k = key := by simpa [Op.stops] using hop
      exact .inl rfl
  | _ => contradiction

section Run

variable {n : Nat} {c : String} {op : Op} {rest : List Op}

variable {key : DialogKey} {m : Nat}

theorem State.Kept.run (h : s.Kept key) (hn : s.handlers[n]? = some ⟨c, op :: rest⟩) (ok : Bool) :
    op = .dropSessions key true ∨
      State.Kept (s.ran ok n c op rest) key := by
  obtain halive | ⟨o, ho, hstops⟩ := h
  · right
    by_cases hremove : (∃ bye top, op = .remove key bye top) ∧ key ∈ s.dialogs
    · obtain ⟨⟨bye, top, rfl⟩, hmem⟩ := hremove
      obtain ⟨d, hd⟩ := Option.isSome_iff_exists.mp (AList.lookup_isSome.mpr hmem)
      refine .inr ⟨.unbridge key bye top, Script.pending_new hn ?_, by simp [Op.stops]⟩
      simp [perform, hd]
    · refine .inl (halive.run hn ok ?_)
      rintro bye top rfl hmem
      exact hremove ⟨⟨bye, top, rfl⟩, hmem⟩
  · obtain rfl | ho := Script.pending_of_set hn (s.perform ok op).2 ho
    · refine (perform_stops s ok hstops).imp_right ?_
      rintro ⟨o', ho', hstops'⟩
      exact .inr ⟨o', Script.pending_new hn ho', hstops'⟩
    · exact .inr (.inr ⟨o, ho, hstops⟩)

theorem kept_of_filing (h : Filing (op :: rest))
    (hop : op = .install key 1 m) (hn : s.handlers[n]? = some ⟨c, op :: rest⟩) (ok : Bool) :
    State.Kept (s.ran ok n c op rest) key := by
  generalize hops : op :: rest = ops at h
  cases h with
  | both k m i =>
    obtain ⟨rfl, rfl⟩ := List.cons.inj hops
    cases hop
  | second m i =>
    obtain ⟨rfl, rfl⟩ := List.cons.inj hops
    cases hop
    have hpending : Script.Pending (s.handlers.set n
        ⟨c, (s.perform ok (.install i.key 1 m)).2 ++ [.establish i]⟩) (.establish i) :=
      ⟨_, List.mem_set (List.getElem?_eq_some_iff.mp hn).1 _, by simp⟩
    obtain ⟨g, hg, ho⟩ := hpending
    exact .inl (.inr ⟨g, hg, _, ho, by simp [Op.enters]⟩)

theorem perform_installed (s : State) (ok : Bool) (op : Op)
    (h : m ∈ (s.perform ok op).1.installed) :
    m ∈ s.installed ∨ (∃ i, op = .joinConference i ∧ m = s.nextSession) ∨
      ∃ key leg, op = .install key leg m := by
  cases op with
  | joinConference i =>
    obtain h | h := List.mem_append.mp h
    · exact .inl h
    · exact .inr (.inl ⟨i, rfl, List.mem_singleton.mp h⟩)
  | install key leg session =>
    obtain h | h := List.mem_append.mp h
    · exact .inl h
    · obtain rfl := List.mem_singleton.mp h
      exact .inr (.inr ⟨key, leg, rfl⟩)
  | _ =>
    left
    revert h
    simp only [perform]
    (try split) <;> (try split) <;> exact id

theorem anchored_new (hscripts : FilingScripts s) (hn : s.handlers[n]? = some ⟨c, op :: rest⟩) (ok : Bool)
    (hnew : (∃ i, op = .joinConference i ∧ m = s.nextSession) ∨
      ∃ key leg, op = .install key leg m) :
    let s' := s.ran ok n c op rest
    s'.Filed m ∧ s'.Anchored m := by
  obtain ⟨i, rfl, rfl⟩ | ⟨key, leg, rfl⟩ := hnew
  · have hlookup : (s.sessions.insert (i.key, 0) s.nextSession).lookup (i.key, 0) =
        some s.nextSession := AList.lookup_insert _
    refine ⟨⟨_, hlookup⟩, .inr ⟨i.key, 0, hlookup, .inl (.inr ?_)⟩⟩
    obtain ⟨g, hg, ho⟩ := Script.pending_new hn (List.mem_singleton.mpr (rfl : .establish i = .establish i))
    exact ⟨g, hg, _, ho, by simp [Op.enters]⟩
  · have hlookup : (s.sessions.insert (key, leg) m).lookup (key, leg) = some m := AList.lookup_insert _
    refine ⟨⟨_, hlookup⟩, ?_⟩
    have hfiling := hscripts _ (List.mem_of_getElem? hn) ⟨_, List.mem_cons_self, rfl⟩
    have hkept : ∀ k, Op.install key leg m = .install k 1 m → _ := fun k hop => kept_of_filing hfiling hop hn ok
    generalize hops : Op.install key leg m :: rest = ops at hfiling
    cases hfiling with
    | both k m' i =>
      obtain ⟨hop, rfl⟩ := List.cons.inj hops
      cases hop
      exact .inl ⟨i.key, _, List.mem_set (List.getElem?_eq_some_iff.mp hn).1 _, by simp⟩
    | second m' i =>
      obtain ⟨hop, rfl⟩ := List.cons.inj hops
      cases hop
      exact .inr ⟨i.key, 1, hlookup, hkept i.key rfl⟩

theorem State.Anchored.run (hfiled : FiledOnce s) (hscripts : FilingScripts s)
    (hn : s.handlers[n]? = some ⟨c, op :: rest⟩) (ok : Bool) (hcareful : op.Careful s)
    (h : s.Anchored m) :
    let s' := s.ran ok n c op rest
    m ∈ s'.stopped ∨ s'.Anchored m := by
  obtain ⟨key, ho⟩ | ⟨key, leg, hlookup, hkept⟩ := h
  · obtain rfl | ho := Script.pending_of_set hn (s.perform ok op).2 ho
    · exact .inr (anchored_new hscripts hn ok (.inr ⟨key, 1, rfl⟩)).2
    · exact .inr (.inl ⟨key, ho⟩)
  · obtain rfl | hkept := hkept.run hn ok
    · exact .inl (List.mem_append_right _ (mem_sessionsOf.mpr ⟨leg, hlookup⟩))
    · have hnow := lookup_kept hfiled (Script.pending_head hn) hcareful (perform_sessions s ok op) hlookup
      exact hnow.symm.imp_right fun hnow => .inr ⟨key, leg, hnow, hkept⟩

theorem StopInv.run (h : StopInv s) (hlife : Life s) (hn : s.handlers[n]? = some ⟨c, op :: rest⟩)
    (ok : Bool) (hcareful : op.Careful s) : StopInv (s.ran ok n c op rest) where
  filed := h.filed.run hn ok
  scripts := h.scripts.run hlife hn ok
  kept := by
    intro m hm
    obtain hm | hnew := perform_installed s ok op hm
    · have hs := perform_sessions s ok op
      obtain hstopped | ⟨k, hk⟩ := h.kept m hm
      · exact .inl (stopped_kept hs hstopped)
      · have hnow := lookup_kept h.filed (Script.pending_head hn) hcareful hs hk
        exact hnow.symm.imp_right fun hnow => ⟨k, hnow⟩
    · exact .inr (anchored_new h.scripts hn ok hnew).1
  anchored := by
    intro m hm
    obtain hm | hnew := perform_installed s ok op hm
    · obtain hstopped | hanchored := h.anchored m hm
      · exact .inl (stopped_kept (perform_sessions s ok op) hstopped)
      · exact hanchored.run h.filed h.scripts hn ok hcareful
    · exact .inr (anchored_new h.scripts hn ok hnew).2

end Run

/-- Nothing but handlers and what is beside the calls changes, and no handler goes. -/
theorem State.Kept.beside (hbeside : Beside s s') (hhandlers : ∀ g ∈ s.handlers, g ∈ s'.handlers)
    (h : s.Kept key) : s'.Kept key := by
  obtain (hmem | ⟨g, hg, ho⟩) | ⟨o, ⟨g, hg, ho⟩, hstops⟩ := h
  · exact .inl (.inl (by rwa [hbeside.dialogs]))
  · exact .inl (.inr ⟨g, hhandlers g hg, ho⟩)
  · exact .inr ⟨o, ⟨g, hhandlers g hg, ho⟩, hstops⟩

theorem StopInv.beside (h : StopInv s) (hbeside : Beside s s')
    (hhandlers : ∀ g ∈ s.handlers, g ∈ s'.handlers) (hfiled : FiledOnce s')
    (hscripts : FilingScripts s') : StopInv s' where
  filed := hfiled
  scripts := hscripts
  kept := by
    unfold State.Filed
    rw [hbeside.installed, hbeside.stopped, hbeside.sessions]
    exact h.kept
  anchored := by
    unfold State.Anchored
    rw [hbeside.installed, hbeside.stopped, hbeside.sessions]
    intro m hm
    refine (h.anchored m hm).imp_right (Or.imp ?_ ?_)
    · rintro ⟨key, g, hg, ho⟩
      exact ⟨key, g, hhandlers g hg, ho⟩
    · rintro ⟨key, leg, hlookup, hkept⟩
      exact ⟨key, leg, hlookup, hkept.beside hbeside hhandlers⟩

theorem FilingScripts.append (h : FilingScripts s)
    (hhandlers : s'.handlers = s.handlers ++ [⟨c, [op]⟩]) (hop : op.isInstall = false) :
    FilingScripts s' := by
  rw [FilingScripts, hhandlers]
  rintro g hg ⟨o, ho, hinstall⟩
  obtain hg | hg := List.mem_append.mp hg
  · exact h g hg ⟨o, ho, hinstall⟩
  · obtain rfl := List.mem_singleton.mp hg
    obtain rfl := List.mem_singleton.mp ho
    rw [hop] at hinstall
    contradiction

theorem StopInv.step (h : StopInv s) (hlife : Life s) {a : Action} (hcareful : CarefulStep s a)
    (hstep : s.step a = some s') : StopInv s' := by
  cases State.moves hstep with
  | run hn hop hs' =>
    subst hs'
    exact h.run hlife hn _ (hcareful _ hop)
  | @invite i hnew hbeside hhandlers =>
    obtain ⟨o, hops, ho⟩ := i.ops_eq
    rw [hops] at hhandlers
    have hsub : ∀ g ∈ s.handlers, g ∈ s'.handlers := fun g hg => by
      rw [hhandlers]
      exact List.mem_append_left _ hg
    have hpending : Script.Pending s'.handlers o := by
      rw [hhandlers]
      exact Script.pending_append.mpr (Or.inr (List.mem_singleton.mpr rfl))
    have hissued : i.key ∈ s'.issued := by
      refine (hlife.step hstep).issued hpending ?_
      obtain rfl | rfl | rfl | ⟨room, leg, _, rfl⟩ := ho <;> simp [Op.brings]
    refine h.beside hbeside hsub (h.filed.append hbeside hhandlers fun key leg => ?_)
      (h.scripts.append hhandlers ?_)
    · obtain rfl | rfl | rfl | ⟨room, leg, _, rfl⟩ := ho <;> simp only [files] <;> grind
    · obtain rfl | rfl | rfl | ⟨room, leg, _, rfl⟩ := ho <;> rfl
  | @request _ op hop hbeside hhandlers =>
    have hsub : ∀ g ∈ s.handlers, g ∈ s'.handlers := fun g hg => by
      rw [hhandlers]
      exact List.mem_append_left _ hg
    refine h.beside hbeside hsub (h.filed.append hbeside hhandlers fun key leg => ?_)
      (h.scripts.append hhandlers ?_)
    · cases op <;> first | contradiction | simp [files]
    · cases op <;> first | contradiction | rfl
  | idle hbeside hhandlers =>
    refine h.beside hbeside (fun g hg => by rwa [hhandlers]) (h.filed.idle hbeside hhandlers) ?_
    rw [FilingScripts, hhandlers]
    exact h.scripts

theorem StopInv.restore (guarded : Bool) (records : List DialogRecord) :
    StopInv (State.restore guarded records) where
  filed := by
    intro key leg
    have hzero : (State.restore guarded records).parkings key = 0 := rfl
    have hnot : (key, leg) ∉ (State.restore guarded records).sessions := AList.notMem_empty _
    rw [places, hzero, if_neg hnot]
    simp [State.restore]
  scripts := by simp [FilingScripts, State.restore]
  kept := by simp [State.restore]
  anchored := by simp [State.restore]

/-! ## the result -/

/-- **No session is orphaned.**  In every run in which a renegotiation takes out
only sessions that have been stopped: a session that has been filed and is so no
longer has been stopped; and when no handler is at work and no dialog is left,
all have been. -/
theorem no_session_orphaned (guarded : Bool) (records : List DialogRecord) (acts : List Action)
    (s : State) (hexec : exec step (State.restore guarded records) acts = some s)
    (hcareful : Meets step CarefulStep (State.restore guarded records) acts) :
    (∀ n ∈ s.installed, ¬ s.Filed n → n ∈ s.stopped) ∧
      (Script.Quiet s.handlers → (∀ key, key ∉ s.dialogs) → ∀ n ∈ s.installed, n ∈ s.stopped) := by
  have h : Life s ∧ StopInv s := by
    refine exec_invariant_of_meets (I := fun s => Life s ∧ StopInv s) ?_ hexec hcareful
      ⟨Life.restore guarded records, StopInv.restore guarded records⟩
    rintro s a s' ⟨hlife, hinv⟩ hok hstep
    exact ⟨hlife.step hstep, hinv.step hlife hok hstep⟩
  obtain ⟨_, hinv⟩ := h
  refine ⟨fun n hn hnot => (hinv.kept n hn).resolve_right hnot, fun hquiet hnone n hn => ?_⟩
  refine (hinv.anchored n hn).resolve_right ?_
  rintro (⟨key, ho⟩ | ⟨key, leg, _, halive | ⟨o, ho, _⟩⟩)
  · exact hquiet.not_pending ho
  · exact hnone key (halive.of_quiet hquiet)
  · exact hquiet.not_pending ho

/-- Two callers are paired through a transcoder; one hangs up, and the other moves
its media before it does. -/
def transcodedCalls : List Action :=
  .invite (.into "r" "a" 1 .pcmu) :: runs 0 5 ++
    .invite (.into "r" "b" 2 .pcma) :: runs 1 8 ++ .bye ("a", "1", "2") :: runs 2 8 ++
    .refresh ("b", "1", "2") (.moving false) :: runs 3 7 ++ .bye ("b", "1", "2") :: runs 4 8

theorem no_session_orphaned_transcodedCalls :
    ∃ s, exec step (State.restore false []) transcodedCalls = some s ∧ s.installed = [0, 0] ∧
      (∀ n ∈ s.installed, n ∈ s.stopped) := by
  have hrun : (exec step (State.restore false []) transcodedCalls).map
      (fun s => (decide (s.installed = [0, 0]), decide (Script.Quiet s.handlers),
        decide (s.dialogs.entries = []))) = some (true, true, true) := by
    decide +kernel
  obtain ⟨s, hexec, hs⟩ := Option.map_eq_some_iff.mp hrun
  simp only [Prod.mk.injEq, decide_eq_true_eq] at hs
  obtain ⟨hinstalled, hquiet, hnone⟩ := hs
  refine ⟨s, hexec, hinstalled, ?_⟩
  refine (no_session_orphaned false [] transcodedCalls s hexec (by decide +kernel)).2 hquiet ?_
  intro key
  rw [AList.mem_keys, AList.keys, hnone]
  simp

/-- Two callers are paired through a transcoder, both move their media, and both hang up. -/
def transferredCalls : List Action :=
  .invite (.into "r" "a" 1 .pcmu) :: runs 0 5 ++
    .invite (.into "r" "b" 2 .pcma) :: runs 1 8 ++
    .refresh ("a", "1", "2") (.moving false) :: runs 2 7 ++
    .refresh ("b", "1", "2") (.moving false) :: runs 3 7 ++
    .bye ("a", "1", "2") :: runs 4 8 ++ .bye ("b", "1", "2") :: runs 5 8

/-- Their session is in nobody's hands and goes on. -/
theorem session_orphaned :
    ¬ ∀ (guarded : Bool) (records : List DialogRecord) (acts : List Action) (s : State),
      exec step (State.restore guarded records) acts = some s →
      (∀ n ∈ s.installed, ¬ s.Filed n → n ∈ s.stopped) ∧
        (Script.Quiet s.handlers → (∀ key, key ∉ s.dialogs) → ∀ n ∈ s.installed, n ∈ s.stopped) := by
  intro h
  have hrun : (exec step (State.restore false []) transferredCalls).map
      (fun s => (decide (s.installed = [0, 0]), decide (s.sessions.entries = []),
        decide (s.stopped = []))) = some (true, true, true) := by
    decide +kernel
  obtain ⟨s, hexec, hs⟩ := Option.map_eq_some_iff.mp hrun
  simp only [Prod.mk.injEq, decide_eq_true_eq] at hs
  obtain ⟨hinstalled, hnone, hstopped⟩ := hs
  have hnot : ¬ s.Filed 0 := by
    rintro ⟨k, hk⟩
    have hmem := AList.mem_lookup_iff.mp hk
    rw [hnone] at hmem
    exact List.not_mem_nil hmem
  have hmem := (h false [] transferredCalls s hexec).1 0 (by simp [hinstalled]) hnot
  simp [hstopped] at hmem

end SmithsNet.Uas.Calls
