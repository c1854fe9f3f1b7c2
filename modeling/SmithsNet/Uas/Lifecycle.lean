import SmithsNet.Uas.Calls

/-!
# SmithsNet.Uas.Lifecycle

The life of a dialog key, in every run of the UAS.  A key is issued to an INVITE
once; from then on it is in one place only: with the handler of the INVITE, in
the dialog table, or among the dialogs torn down.  A key never goes back.

The handlers of one `Call-ID` run one after the other, and the handler of an
INVITE runs on the worker of its own key.
-/

namespace SmithsNet.Uas.Calls

open Lib SmithsNet.Core Attach State Op

/-! ## a key in the hands of its INVITE -/

/-- The operation belongs to the INVITE that will enter this key. -/
def Op.brings (key : DialogKey) : Op → Bool
  | bridgeWebrtc i | joinConference i | rendezvousPair i _ _ | connect i _ _ | establish i =>
    decide (i.key = key)
  | _ => false

/-- Connecting two legs that have been paired. -/
def Op.isLink : Op → Bool
  | record _ _ _ | install _ _ _ => true
  | _ => false

variable {a : Action} {ok : Bool} {key : DialogKey} {ops rest : List Op} {n : Nat}
    {op o : Op} {callId c : String}

theorem Op.isLink_of_brings (h : op.brings key = true) : op.isLink = false := by
  cases op <;> first | rfl | contradiction

/-- The script of an INVITE until its dialog is entered: it may have legs to
connect, and then goes on with the INVITE. -/
def Attaching (ops : List Op) : Prop := ∃ links last, ops = links ++ [last] ∧ ∀ o ∈ links, o.isLink = true

/-- How many operations will enter this key. -/
def State.bringing (s : State) (key : DialogKey) : Nat :=
  total (fun h : Handler => h.ops.countP (brings key)) s.handlers

/-- The dialog is in the table, as a number. -/
def State.present (s : State) (key : DialogKey) : Nat := if key ∈ s.dialogs then 1 else 0

structure Life (s : State) : Prop where
  /-- A key that was issued is in one place. -/
  once : ∀ key, s.bringing key + s.present key + s.torn.count key ≤
    if key ∈ s.issued then 1 else 0
  /-- An INVITE is handled on the worker of its key. -/
  own : ∀ h ∈ s.handlers, ∀ op ∈ h.ops, ∀ key, op.brings key = true → h.owner = key.1
  /-- Before the dialog is entered its handler only attaches media. -/
  attaching : ∀ h ∈ s.handlers, (∃ op ∈ h.ops, ∃ key, op.brings key = true) → Attaching h.ops
  /-- One handler at a time for each `Call-ID`. -/
  serial : ∀ (i j : Nat) (h h' : Handler), s.handlers[i]? = some h → s.handlers[j]? = some h' →
    h.ops ≠ [] → h'.ops ≠ [] → h.owner = h'.owner → i = j

/-! ## one operation -/

theorem countP_eq_zero_of_forall
    (h : ∀ o ∈ ops, o.brings key = false) : ops.countP (brings key) = 0 := by
  simpa [List.countP_eq_zero] using h

@[simp] theorem countP_establishOps (i : Invite) (key : DialogKey) :
    i.establishOps.countP (brings key) = 0 := by
  refine countP_eq_zero_of_forall fun o ho => ?_
  obtain ⟨m, _, rfl⟩ | rfl | ⟨_, rfl⟩ | rfl := Invite.mem_establishOps.mp ho <;> rfl

@[simp] theorem countP_refreshOps (r : Refresh) (k key : DialogKey) :
    (r.ops k).countP (brings key) = 0 := by
  refine countP_eq_zero_of_forall fun o ho => ?_
  obtain ⟨m, _, rfl⟩ | ⟨_, rfl⟩ | ⟨_, rfl⟩ | ⟨_, rfl⟩ := Refresh.mem_ops.mp ho <;> rfl

@[simp] theorem countP_teardownOps (k : DialogKey) (d : Dialog) (bye top : Bool) (key : DialogKey) :
    (teardownOps k d bye top).countP (brings key) = 0 := by
  refine countP_eq_zero_of_forall fun o ho => ?_
  obtain rfl | rfl | rfl | rfl | ⟨room, _, rfl⟩ | rfl := mem_teardownOps.mp ho <;> rfl

@[simp] theorem countP_finishOps (k : DialogKey) (bye top : Bool) (partner : Option DialogKey)
    (key : DialogKey) : (finishOps k bye top partner).countP (brings key) = 0 := by
  refine countP_eq_zero_of_forall fun o ho => ?_
  obtain rfl | ⟨_, rfl⟩ | ⟨_, p, _, rfl⟩ := mem_finishOps.mp ho <;> rfl

/-- A key moves on from the INVITE to the table to the torn ones, or is given up. -/
theorem perform_once (s : State) (ok : Bool) (op : Op) (key : DialogKey) :
    (s.perform ok op).2.countP (brings key) + (s.perform ok op).1.present key +
        (s.perform ok op).1.torn.count key ≤
      [op].countP (brings key) + s.present key + s.torn.count key := by
  cases op with
  | establish i =>
    by_cases hkey : i.key = key
    · simp [perform, present, brings, hkey]
    · simp [perform, present, brings, hkey, Ne.symm hkey]
  | confirm k =>
    simp only [perform]
    split
    · next d hd =>
      have hmem : k ∈ s.dialogs := AList.lookup_isSome.mp (by rw [hd]; rfl)
      by_cases hkey : key = k <;> simp [present, brings, hkey, hmem]
    · simp [present, brings]
  | remove k bye top =>
    simp only [perform]
    split
    · next d hd =>
      have hmem : k ∈ s.dialogs := AList.lookup_isSome.mp (by rw [hd]; rfl)
      by_cases hkey : k = key
      · simp [present, brings, ← hkey, hmem, Nat.add_comm]
      · simp [present, brings, hkey, Ne.symm hkey]
    · simp [present, brings]
  | _ =>
    simp only [perform]
    (try split) <;> (try split) <;> simp [brings, present]

/-- No operation issues a key, touches the event queue or looks at other handlers. -/
theorem perform_frame (s : State) (ok : Bool) (op : Op) :
    (s.perform ok op).1.issued = s.issued ∧ (s.perform ok op).1.queue = s.queue := by
  cases op <;> simp only [perform] <;> (try split) <;> (try split) <;> simp

/-- Only an INVITE's operation leaves one behind, and then it is the last. -/
theorem perform_brings {s : State} (ho : o ∈ (s.perform ok op).2) (hbrings : o.brings key = true) :
    op.brings key = true ∧ Attaching (s.perform ok op).2 := by
  have hone : 0 < (s.perform ok op).2.countP (brings key) :=
    List.countP_pos_iff.mpr ⟨o, ho, hbrings⟩
  have hkey : ∀ i : Invite, (0 < if i.key = key then 1 else 0) → i.key = key := by
    intro i h
    by_contra hne
    simp [hne] at h
  have single : ∀ o : Op, Attaching [o] := fun o => ⟨[], o, rfl, by simp⟩
  clear ho hbrings
  cases op with
  | bridgeWebrtc i =>
    refine ⟨?_, single _⟩
    simpa [brings] using hkey i (by simpa [perform, brings] using hone)
  | joinConference i =>
    refine ⟨?_, single _⟩
    simpa [brings] using hkey i (by simpa [perform, brings] using hone)
  | rendezvousPair i room leg =>
    simp only [perform] at hone ⊢
    split at hone
    all_goals
      refine ⟨?_, single _⟩
      simpa [brings] using hkey i (by simpa [brings] using hone)
  | connect i room p =>
    have attaches : ∀ o₁ o₂ : Op, o₁.isLink = true → o₂.isLink = true →
        Attaching [o₁, o₂, .establish i] := fun o₁ o₂ h₁ h₂ => ⟨[o₁, o₂], _, rfl, by simp [h₁, h₂]⟩
    cases ok with
    | false => simp [perform, brings] at hone
    | true =>
      cases hm : mismatch p.audioCodec i.codec with
      | none =>
        simp only [perform, hm, if_true] at hone ⊢
        refine ⟨?_, attaches _ _ rfl rfl⟩
        simpa [brings] using hkey i (by simpa [brings] using hone)
      | some codecs =>
        simp only [perform, hm, if_true] at hone ⊢
        refine ⟨?_, attaches _ _ rfl rfl⟩
        simpa [brings] using hkey i (by simpa [brings] using hone)
  | _ =>
    simp only [perform] at hone
    (try split at hone) <;> (try split at hone) <;> simp [brings] at hone

theorem rest_of_attaching (h : Attaching (op :: rest)) (hop : op.isLink = false) : rest = [] := by
  obtain ⟨links, last, hops, hlinks⟩ := h
  cases links with
  | nil =>
    obtain ⟨_, rfl⟩ := List.cons.inj hops
    rfl
  | cons p links =>
    obtain ⟨rfl, _⟩ := List.cons.inj hops
    have hlink := hlinks op List.mem_cons_self
    rw [hop] at hlink
    contradiction

theorem perform_link {s : State} (hop : op.isLink = true) : (s.perform ok op).2 = [] := by
  cases op <;> first | contradiction | rfl

/-! ## the steps -/

variable {s s' : State}

section

variable (h : Life s)
include h

theorem Life.of_same (hdialogs : s'.dialogs = s.dialogs) (htorn : s'.torn = s.torn)
    (hissued : s'.issued = s.issued) (hhandlers : s'.handlers = s.handlers) : Life s' := by
  constructor
  · intro key
    rw [State.bringing, hhandlers, present, hdialogs, htorn, hissued]
    exact h.once key
  · rw [hhandlers]
    exact h.own
  · rw [hhandlers]
    exact h.attaching
  · rw [hhandlers]
    exact h.serial

theorem Life.start {issued : List DialogKey} (hfree : Script.Free s.handlers callId)
    (honce : ∀ key, ops.countP (brings key) + (if key ∈ s.issued then 1 else 0) ≤
      if key ∈ issued then 1 else 0)
    (hown : ∀ op ∈ ops, ∀ key, op.brings key = true → callId = key.1)
    (hattach : (∃ op ∈ ops, ∃ key, op.brings key = true) → Attaching ops)
    (hdialogs : s'.dialogs = s.dialogs) (htorn : s'.torn = s.torn) (hissued : s'.issued = issued)
    (hhandlers : s'.handlers = s.handlers ++ [⟨callId, ops⟩]) : Life s' := by
  have hmem : ∀ g ∈ s.handlers ++ [⟨callId, ops⟩], g ∈ s.handlers ∨ g = ⟨callId, ops⟩ := by
    intro g hg
    simpa using hg
  constructor
  · intro key
    have hold := h.once key
    have hnew := honce key
    have hbringing : s'.bringing key = s.bringing key + ops.countP (brings key) := by
      simp [State.bringing, hhandlers]
    rw [hbringing, present, hdialogs, htorn, hissued]
    unfold present at hold
    omega
  · intro g hg
    rw [hhandlers] at hg
    obtain hg | rfl := hmem g hg
    · exact h.own g hg
    · exact hown
  · intro g hg
    rw [hhandlers] at hg
    obtain hg | rfl := hmem g hg
    · exact h.attaching g hg
    · exact hattach
  · intro i j g g' hi hj hne hne' howner
    rw [hhandlers] at hi hj
    -- the worker was free: every other handler of this owner is at its end
    have hlast : ∀ (i : Nat) (g : Handler), (s.handlers ++ [⟨callId, ops⟩])[i]? = some g →
        s.handlers[i]? = some g ∨ i = s.handlers.length ∧ g = ⟨callId, ops⟩ := by
      intro i g hi
      rw [List.getElem?_append] at hi
      split at hi
      · exact Or.inl hi
      · rw [List.getElem?_singleton] at hi
        split at hi
        · exact Or.inr ⟨by omega, (Option.some.inj hi).symm⟩
        · contradiction
    obtain hi | ⟨hi, rfl⟩ := hlast i g hi
    · obtain hj | ⟨hj, rfl⟩ := hlast j g' hj
      · exact h.serial i j g g' hi hj hne hne' howner
      · exact absurd (hfree g (List.mem_of_getElem? hi) howner) hne
    · obtain hj | ⟨hj, rfl⟩ := hlast j g' hj
      · exact absurd (hfree g' (List.mem_of_getElem? hj) howner.symm) hne'
      · omega

theorem Life.run (hn : s.handlers[n]? = some ⟨c, op :: rest⟩) (ok : Bool) :
    Life (s.ran ok n c op rest) := by
  have hmem := List.mem_of_getElem? hn
  have hset : ∀ g ∈ s.handlers.set n ⟨c, (s.perform ok op).2 ++ rest⟩,
      g ∈ s.handlers ∨ g = ⟨c, (s.perform ok op).2 ++ rest⟩ := fun g hg =>
    List.mem_or_eq_of_mem_set hg
  constructor
  · intro key
    have hold := h.once key
    have hmove := perform_once s ok op key
    have htotal := total_set (fun h : Handler => h.ops.countP (brings key)) hn
      ⟨c, (s.perform ok op).2 ++ rest⟩
    simp only [List.countP_append, List.countP_cons, List.countP_nil] at htotal hmove
    rw [State.withHandlers_issued, (perform_frame s ok op).1, State.withHandlers_torn]
    simp only [State.bringing, present, State.withHandlers_handlers,
      State.withHandlers_dialogs] at hold hmove ⊢
    omega
  · intro g hg o ho key hbrings
    obtain hg | rfl := hset g hg
    · exact h.own g hg o ho key hbrings
    · obtain ho | ho := List.mem_append.mp ho
      · exact h.own _ hmem op List.mem_cons_self key (perform_brings ho hbrings).1
      · exact h.own _ hmem o (List.mem_cons_of_mem _ ho) key hbrings
  · intro g hg hex
    obtain hg | rfl := hset g hg
    · exact h.attaching g hg hex
    · obtain ⟨o, ho, key, hbrings⟩ := hex
      obtain ho | ho := List.mem_append.mp ho
      · -- the INVITE's own operation, and the script was at its end
        obtain ⟨hop, links, last, hops, hlinks⟩ := perform_brings ho hbrings
        obtain rfl := rest_of_attaching (h.attaching _ hmem ⟨op, List.mem_cons_self, key, hop⟩)
          (Op.isLink_of_brings hop)
        exact ⟨links, last, by rw [List.append_nil, hops], hlinks⟩
      · obtain ⟨pre, last, hold, hpre⟩ :=
          h.attaching _ hmem ⟨o, List.mem_cons_of_mem _ ho, key, hbrings⟩
        cases pre with
        | nil =>
          obtain ⟨_, rfl⟩ := List.cons.inj hold
          contradiction
        | cons p pre =>
          obtain ⟨rfl, rfl⟩ := List.cons.inj hold
          rw [perform_link (hpre op List.mem_cons_self)]
          exact ⟨pre, last, rfl, fun o ho => hpre o (List.mem_cons_of_mem _ ho)⟩
  · intro i j g g' hi hj hne hne' howner
    have hback : ∀ (i : Nat) (g : Handler),
        (s.handlers.set n ⟨c, (s.perform ok op).2 ++ rest⟩)[i]? = some g → g.ops ≠ [] →
        ∃ g₀ : Handler, s.handlers[i]? = some g₀ ∧ g₀.ops ≠ [] ∧ g₀.owner = g.owner := by
      intro i g hi hne
      rw [List.getElem?_set] at hi
      split at hi
      · next hni =>
        subst hni
        split at hi
        · obtain rfl := Option.some.inj hi
          exact ⟨_, hn, List.cons_ne_nil _ _, rfl⟩
        · contradiction
      · exact ⟨g, hi, hne, rfl⟩
    obtain ⟨g₀, hi, hne, hg⟩ := hback i g hi hne
    obtain ⟨g₀', hj, hne', hg'⟩ := hback j g' hj hne'
    exact h.serial i j g₀ g₀' hi hj hne hne' (hg.trans (howner.trans hg'.symm))

theorem Life.start_other
    (hops : ∀ op ∈ ops, ∀ key, op.brings key = false) (hstart : s.start callId ops = some s') :
    Life s' := by
  obtain ⟨hfree, rfl⟩ := State.start_eq_some hstart
  refine h.start hfree ?_ ?_ ?_ rfl rfl rfl rfl
  · intro key
    rw [countP_eq_zero_of_forall fun op hop => hops op hop key, Nat.zero_add]
    exact Nat.le_refl _
  · intro op hop key hbrings
    rw [hops op hop key] at hbrings
    contradiction
  · rintro ⟨op, hop, key, hbrings⟩
    rw [hops op hop key] at hbrings
    contradiction

theorem Life.start_invite {i : Invite} (hnew : i.key ∉ s.issued)
    (hstart : ({ s with issued := i.key :: s.issued } : State).start i.key.1 i.ops = some s') :
    Life s' := by
  obtain ⟨hfree, rfl⟩ := State.start_eq_some hstart
  obtain ⟨o, hops, ho⟩ := i.ops_eq
  have hbrings : ∀ key, o.brings key = decide (i.key = key) := by
    intro key
    obtain rfl | rfl | rfl | ⟨room, leg, _, rfl⟩ := ho <;> rfl
  rw [hops]
  refine h.start hfree ?_ ?_ ?_ rfl rfl rfl rfl
  · intro key
    rw [List.countP_singleton, hbrings key]
    by_cases hkey : i.key = key
    · subst hkey
      simp [hnew]
    · simp [hkey, Ne.symm hkey]
  · intro op hop key hkey
    rw [List.mem_singleton.mp hop, hbrings key, decide_eq_true_eq] at hkey
    rw [hkey]
  · exact fun _ => ⟨[], o, rfl, by simp⟩

theorem Life.step (hstep : s.step a = some s') : Life s' := by
  cases a with
  | invite i =>
    simp only [State.step] at hstep
    split at hstep
    · contradiction
    · next hnew => exact h.start_invite hnew hstep
  | refresh key r => exact h.start_other (by simp [brings]) hstep
  | ack key => exact h.start_other (by simp [brings]) hstep
  | bye key => exact h.start_other (by simp [brings]) hstep
  | internal n =>
    simp only [State.step] at hstep
    split at hstep
    · next e he =>
      have h' : Life { s with queue := s.queue.eraseIdx n } := h.of_same rfl rfl rfl rfl
      refine h'.start_other (fun op hop key => ?_) hstep
      obtain ⟨k, _, rfl⟩ | ⟨k, g, m, _, rfl⟩ | ⟨k, _, rfl⟩ := InternalEvent.mem_ops.mp hop <;> rfl
    · contradiction
  | run n ok =>
    obtain ⟨c, op, rest, hn, _, rfl⟩ := State.step_run hstep
    exact h.run hn ok
  | retransmit n sent =>
    simp only [State.step] at hstep
    split at hstep
    · obtain rfl := Option.some.inj hstep
      cases sent <;> exact h.of_same rfl rfl rfl rfl
    · contradiction
  | expire n | strike n | giveUp n | quit n | settle n | release n | notify n =>
    simp only [State.step] at hstep
    split at hstep
    · obtain rfl := Option.some.inj hstep
      exact h.of_same rfl rfl rfl rfl
    · contradiction

end

theorem mem_restore {guarded : Bool} {records : List DialogRecord} :
    key ∈ (State.restore guarded records).dialogs ↔ key ∈ records.map DialogRecord.key := by
  have hfold : ∀ t : KeyMap DialogKey Dialog,
      key ∈ records.foldl (fun t r => t.insert r.key ⟨r.state, r.rendezvous⟩) t ↔
        key ∈ t ∨ key ∈ records.map DialogRecord.key := by
    induction records with
    | nil => simp
    | cons r records ih =>
      intro t
      rw [List.foldl_cons, ih, AList.mem_insert, List.map_cons, List.mem_cons]
      grind
  rw [State.restore, hfold]
  simp

theorem Life.restore (guarded : Bool) (records : List DialogRecord) :
    Life (State.restore guarded records) := by
  constructor
  · intro key
    have hbringing : (State.restore guarded records).bringing key = 0 := rfl
    have htorn : (State.restore guarded records).torn = [] := rfl
    have hissued : (State.restore guarded records).issued = records.map DialogRecord.key := rfl
    rw [hbringing, htorn, hissued, present]
    simp only [mem_restore, List.count_nil, Nat.add_zero, Nat.zero_add, Nat.le_refl]
  all_goals simp [State.restore]

/-! ## what follows -/

theorem Life.bringing_pos (hop : Script.Pending s.handlers op)
    (hbrings : op.brings key = true) : 0 < s.bringing key := by
  obtain ⟨g, hg, ho⟩ := hop
  have hone : 0 < g.ops.countP (brings key) := List.countP_pos_iff.mpr ⟨op, ho, hbrings⟩
  obtain ⟨j, hj⟩ := List.getElem?_of_mem hg
  have htotal := total_set (fun h : Handler => h.ops.countP (brings key)) hj ⟨g.owner, []⟩
  simp only [List.countP_nil] at htotal
  unfold State.bringing
  omega

theorem Life.issued (h : Life s) (hop : Script.Pending s.handlers op)
    (hbrings : op.brings key = true) : key ∈ s.issued := by
  have honce := h.once key
  have hpos := Life.bringing_pos hop hbrings
  by_contra hnot
  rw [if_neg hnot] at honce
  omega

/-- A key in the hands of its INVITE is neither in the table nor torn down. -/
theorem Life.fresh (h : Life s) (hop : Script.Pending s.handlers op)
    (hbrings : op.brings key = true) : key ∉ s.dialogs ∧ key ∉ s.torn := by
  have honce := h.once key
  have hpos := Life.bringing_pos hop hbrings
  have hle : (if key ∈ s.issued then 1 else 0) ≤ 1 := by split <;> simp
  constructor
  · intro hmem
    rw [present, if_pos hmem] at honce
    omega
  · intro hmem
    have := List.count_pos_iff.mpr hmem
    omega

/-- How many operations will enter the key, as a weight of what is pending. -/
theorem State.bringing_eq_weigh (s : State) (key : DialogKey) :
    s.bringing key = Script.weigh (fun o => if o.brings key then 1 else 0) s.handlers := by
  have hops : ∀ ops : List Op, ops.countP (brings key) =
      total (fun o => if o.brings key then 1 else 0) ops := by
    intro ops
    induction ops with
    | nil => rfl
    | cons o ops ih => rw [List.countP_cons, total_cons, ih, Nat.add_comm]
  simp only [State.bringing, Script.weigh, hops]

theorem Life.brings_unique (h : Life s) {o' : Op}
    (ho : Script.Pending s.handlers o) (ho' : Script.Pending s.handlers o')
    (hbrings : o.brings key = true) (hbrings' : o'.brings key = true) : o = o' := by
  have hone : s.bringing key ≤ 1 := by
    have honce := h.once key
    have hle : (if key ∈ s.issued then 1 else 0) ≤ 1 := by split <;> simp
    omega
  rw [State.bringing_eq_weigh] at hone
  exact Script.pending_unique hone ho ho' (by simp [hbrings]) (by simp [hbrings'])

theorem Life.gone (h : Life s) (hmem : key ∈ s.torn) : key ∉ s.dialogs := by
  intro hin
  have honce := h.once key
  have hcount := List.count_pos_iff.mpr hmem
  have hle : (if key ∈ s.issued then 1 else 0) ≤ 1 := by split <;> simp
  rw [present, if_pos hin] at honce
  omega

/-! ## dialogs that are there or about to be -/

/-- The operation enters this dialog. -/
def Op.enters (key : DialogKey) : Op → Bool
  | establish i => decide (i.key = key)
  | _ => false

/-- The dialog is in the table, or its INVITE has got as far as entering it. -/
def State.Alive (s : State) (key : DialogKey) : Prop :=
  key ∈ s.dialogs ∨ ∃ h ∈ s.handlers, ∃ op ∈ h.ops, op.enters key = true

instance (s : State) (key : DialogKey) : Decidable (s.Alive key) :=
  inferInstanceAs (Decidable (_ ∨ _))

theorem State.Alive.of_quiet (h : s.Alive key) (hquiet : Script.Quiet s.handlers) :
    key ∈ s.dialogs := by
  obtain h | ⟨g, hg, op, hop, _⟩ := h
  · exact h
  · exact absurd ⟨g, hg, hop⟩ hquiet.not_pending

theorem State.Alive.not_torn (h : s.Alive key) (hlife : Life s) : key ∉ s.torn := by
  intro hgone
  obtain h | ⟨g, hg, op, hop, henters⟩ := h
  · exact hlife.gone hgone h
  · have hbrings : op.brings key = true := by
      cases op <;> first | contradiction | exact henters
    exact (hlife.fresh ⟨g, hg, hop⟩ hbrings).2 hgone

theorem perform_dialogs (s : State) (ok : Bool) (h : key ∈ s.dialogs ∨ op.enters key = true) :
    key ∈ (s.perform ok op).1.dialogs ∨ ∃ bye top, op = .remove key bye top := by
  cases op with
  | establish i =>
    left
    simpa [perform, Op.enters, or_comm, eq_comm] using h
  | confirm k =>
    left
    have hmem : key ∈ s.dialogs := by simpa [Op.enters] using h
    simp only [perform]
    split
    · exact (AList.mem_insert _).mpr (Or.inr hmem)
    · exact hmem
  | remove k bye top =>
    have hmem : key ∈ s.dialogs := by simpa [Op.enters] using h
    by_cases hkey : key = k
    · exact Or.inr ⟨bye, top, by rw [hkey]⟩
    · left
      simp only [perform]
      split
      · simpa [hkey] using hmem
      · exact hmem
  | _ =>
    left
    have hmem : key ∈ s.dialogs := by simpa [Op.enters] using h
    simp only [perform]
    (try split) <;> (try split) <;> exact hmem

/-- A handler carries out an operation that does not take the dialog out of the table. -/
theorem State.Alive.run (h : s.Alive key) (hn : s.handlers[n]? = some ⟨c, op :: rest⟩) (ok : Bool)
    (hop : ∀ bye top, op = .remove key bye top → key ∉ s.dialogs) :
    State.Alive (s.ran ok n c op rest) key := by
  have hdialogs : key ∈ s.dialogs ∨ op.enters key = true → key ∈ (s.perform ok op).1.dialogs := by
    intro hkey
    refine (perform_dialogs s ok hkey).resolve_right ?_
    rintro ⟨bye, top, rfl⟩
    exact hkey.elim (hop bye top rfl) (by simp [Op.enters])
  obtain h | ⟨g, hg, o, ho, henters⟩ := h
  · exact Or.inl (hdialogs (Or.inl h))
  · obtain rfl | ⟨g', hg', ho'⟩ :=
      Script.pending_of_set hn (s.perform ok op).2 ⟨g, hg, ho⟩
    · exact Or.inl (hdialogs (Or.inr henters))
    · exact Or.inr ⟨g', hg', o, ho', henters⟩

theorem State.Alive.append (h : s.Alive key) (g : Handler)
    (hdialogs : s'.dialogs = s.dialogs) (hhandlers : s'.handlers = s.handlers ++ [g]) :
    s'.Alive key := by
  rw [State.Alive, hdialogs, hhandlers]
  refine h.imp_right ?_
  rintro ⟨g', hg', hop⟩
  exact ⟨g', List.mem_append_left _ hg', hop⟩

theorem State.Alive.of_same (h : s.Alive key) (hdialogs : s'.dialogs = s.dialogs)
    (hhandlers : s'.handlers = s.handlers) : s'.Alive key := by
  rwa [State.Alive, hdialogs, hhandlers]

/-- The dialog the operation takes out of the table. -/
def Op.removes : Op → Option DialogKey
  | remove key _ _ => some key
  | _ => none

/-- The dialog whose leg the operation takes up. -/
def Op.takes (s : State) : Op → Option DialogKey
  | rendezvousPair _ room _ => (s.pending.lookup room).map PendingLeg.dialogKey
  | findPartner key _ bid =>
    (s.bridges.entries.find? fun e => e.2 = bid ∧ e.1 ≠ key).map Sigma.fst
  | _ => none

/-! ## what a step can be -/

/-- The first operation of a handler that is not an INVITE's. -/
def Op.isRequest : Op → Bool
  | lookUp _ _ | confirm _ | remove _ false true | checkAck _ | checkExpired _ _ _
  | checkDuration _ => true
  | _ => false

/-- The two states differ in handlers, keys issued, events, timers and
retransmit loops only; a slot of a loop may have been cleared. -/
structure Beside (s s' : State) : Prop where
  dialogs : s'.dialogs = s.dialogs
  sessionTimers : s'.sessionTimers = s.sessionTimers
  durationGuards : s'.durationGuards = s.durationGuards
  legMedia : s'.legMedia = s.legMedia
  bridges : s'.bridges = s.bridges
  sessions : s'.sessions = s.sessions
  pending : s'.pending = s.pending
  nextBridge : s'.nextBridge = s.nextBridge
  waited : s'.waited = s.waited
  pairs : s'.pairs = s.pairs
  torn : s'.torn = s.torn
  byes : s'.byes = s.byes
  installed : s'.installed = s.installed
  stopped : s'.stopped = s.stopped
  issued : ∀ key ∈ s.issued, key ∈ s'.issued
  retransmits : ∀ key ∈ s'.retransmits, key ∈ s.retransmits

/-- A handler moves on, or one starts, or something moves beside them. -/
inductive Moves (s : State) (a : Action) (s' : State) : Prop
  | run {n : Nat} {c : String} {op : Op} {rest : List Op} {ok : Bool}
      (hn : s.handlers[n]? = some ⟨c, op :: rest⟩) (hop : s.opOf a = some (op, ok))
      (h : s' = s.ran ok n c op rest)
  | invite {i : Invite} (hnew : i.key ∉ s.issued) (hbeside : Beside s s')
      (h : s'.handlers = s.handlers ++ [⟨i.key.1, i.ops⟩])
  | request {c : String} {op : Op} (hop : op.isRequest = true) (hbeside : Beside s s')
      (h : s'.handlers = s.handlers ++ [⟨c, [op]⟩])
  | idle (hbeside : Beside s s') (h : s'.handlers = s.handlers)

theorem Beside.start {issued : List DialogKey} {queue : List InternalEvent} (hissued : ∀ key ∈ s.issued, key ∈ issued)
    (hstart : ({ s with issued, queue } : State).start callId ops = some s') :
    Beside s s' ∧ s'.handlers = s.handlers ++ [⟨callId, ops⟩] := by
  obtain ⟨_, rfl⟩ := State.start_eq_some hstart
  exact ⟨⟨rfl, rfl, rfl, rfl, rfl, rfl, rfl, rfl, rfl, rfl, rfl, rfl, rfl, rfl, hissued,
    fun _ h => h⟩, rfl⟩

theorem InternalEvent.ops_request (e : InternalEvent) : ∃ o, e.ops = [o] ∧ o.isRequest = true := by
  cases e <;> exact ⟨_, rfl, rfl⟩

theorem State.moves (hstep : s.step a = some s') : Moves s a s' := by
  cases a with
  | run n ok =>
    obtain ⟨c, op, rest, hn, hop, h⟩ := State.step_run hstep
    exact .run hn hop h
  | invite i =>
    simp only [State.step] at hstep
    split at hstep
    · contradiction
    · next hnew =>
      obtain ⟨hbeside, h⟩ := Beside.start (fun _ => List.mem_cons_of_mem _) hstep
      exact .invite hnew hbeside h
  | refresh key r | ack key | bye key =>
    obtain ⟨hbeside, h⟩ := Beside.start (fun _ h => h) hstep
    exact .request rfl hbeside h
  | internal n =>
    simp only [State.step] at hstep
    split at hstep
    · next e he =>
      obtain ⟨hbeside, h⟩ := Beside.start (fun _ h => h) hstep
      obtain ⟨o, hops, hrequest⟩ := e.ops_request
      rw [hops] at h
      exact .request hrequest hbeside h
    · contradiction
  | retransmit n sent =>
    simp only [State.step] at hstep
    split at hstep
    · obtain rfl := Option.some.inj hstep
      refine .idle ?_ ?_
      · cases sent <;> constructor <;> simp [setLoop]
      · cases sent <;> rfl
    · contradiction
  | expire n | strike n | giveUp n | quit n | settle n | release n | notify n =>
    simp only [State.step] at hstep
    split at hstep
    · obtain rfl := Option.some.inj hstep
      refine .idle ?_ rfl
      constructor <;> simp +contextual [setLoop]
    · contradiction

/-! ## two calls that meet, as the examples of the next modules use them -/

/-- A caller into a room. -/
def Invite.into (room callId : String) (endpoint : UInt64) (codec : NegotiatedCodec) : Invite where
  key := (callId, "1", "2")
  room := some room
  media := some { endpoint := endpoint, remote := some (.v4 0x7F000001#32 4000) }
  codec := some codec
  route := .rendezvous
  timer := false

/-- A re-INVITE that moves the caller's media. -/
def Refresh.moving (timer : Bool) : Refresh where
  invite := true
  media := some { endpoint := 3, remote := some (.v4 0x7F000001#32 5000) }
  timer := timer

/-- One caller waits in the room, handler 0, and the next is bridged with it, handler 1. -/
def pairedCalls : List Action :=
  .invite (.into "r" "a" 1 .pcmu) :: Action.runs 0 5 ++
    .invite (.into "r" "b" 2 .pcmu) :: Action.runs 1 8

end SmithsNet.Uas.Calls
