import SmithsNet.Uas.Rendezvous

/-!
# SmithsNet.Uas.ParkedMedia

A leg that waits in a room carries a copy of its dialog's media, taken when it
was parked.  A re-INVITE or an UPDATE writes the entry in `leg_media`; nobody
writes the copy, and the copy is what the media fabric gets when a partner
comes.

`handsCurrentMedia_of_refreshesKeepLeg`: in a run in which every refresh of a
dialog whose leg waits leaves the leg as it is, the leg that is handed over is
the one of the dialog's entry.
`stale_leg_handed_over`: a leg that moved while it waited is handed over as it
was before.
-/

namespace SmithsNet.Uas.Calls

open Lib SmithsNet.Core Attach State

/-! ## the legs that wait -/

/-- The legs in the rooms, and those taken out of them to be paired. -/
def State.legs (s : State) : List PendingLeg :=
  s.pending.entries.map Sigma.snd ++
    (s.handlers.flatMap Script.ops).filterMap fun o => o.inHand.map Prod.snd

variable {ok : Bool} {key : DialogKey} {m : LegMedia} {op : Op} {p : PendingLeg} {c : String}

theorem State.mem_legs {s : State} : p ∈ s.legs ↔ ∃ room, s.Leg room p := by
  have hparked : p ∈ s.pending.entries.map Sigma.snd ↔ ∃ room, s.pending.lookup room = some p := by
    simp only [List.mem_map, ← Option.mem_def, AList.mem_lookup_iff]
    constructor
    · rintro ⟨⟨room, q⟩, hmem, rfl⟩
      exact ⟨room, hmem⟩
    · rintro ⟨room, hmem⟩
      exact ⟨_, hmem, rfl⟩
  have hheld : p ∈ (s.handlers.flatMap Script.ops).filterMap (fun o => o.inHand.map Prod.snd) ↔
      ∃ room o, Script.Pending s.handlers o ∧ o.inHand = some (room, p) := by
    simp only [List.mem_filterMap, List.mem_flatMap, Option.map_eq_some_iff, Prod.exists,
      exists_eq_right, Script.Pending]
    constructor
    · rintro ⟨o, ho, room, hhand⟩
      exact ⟨room, o, ho, hhand⟩
    · rintro ⟨room, o, ho, hhand⟩
      exact ⟨o, ho, room, hhand⟩
  rw [legs, List.mem_append, hparked, hheld, ← exists_or]
  rfl

/-- The operation writes the entry of this dialog, or comes to it next. -/
def Op.puts (key : DialogKey) : Op → Bool
  | establish i => decide (i.key = key) && i.media.isSome
  | putMedia k _ => decide (k = key)
  | _ => false

/-- The copy and the entry agree, and the entry is there unless the dialog's
INVITE is just writing it or the dialog has been torn down. -/
structure CurrentMedia (s : State) (p : PendingLeg) : Prop where
  same : ∀ m, s.legMedia.lookup p.dialogKey = some m → m.bridgeLeg = some p.leg
  there : p.dialogKey ∈ s.legMedia ∨
    (∃ o, Script.Pending s.handlers o ∧ o.puts p.dialogKey = true) ∨ p.dialogKey ∈ s.torn

/-- Whatever leg is about to be handed to the fabric is as the entry has it. -/
def HandsCurrentMedia (s : State) : Prop :=
  ∀ n ok i room p, s.opOf (.run n ok) = some (.connect i room p, ok) → CurrentMedia s p

/-- The media that a refresh is about to apply, and the dialog. -/
def Op.offers : Op → Option (DialogKey × LegMedia)
  | compareMedia key media => some (key, media)
  | _ => none

/-- The media makes the leg that waits for the dialog, if one does. -/
def State.Agrees (s : State) (key : DialogKey) (media : LegMedia) : Prop :=
  ∀ p ∈ s.legs, p.dialogKey = key → media.bridgeLeg = some p.leg

instance (s : State) (key : DialogKey) (media : LegMedia) : Decidable (s.Agrees key media) :=
  inferInstanceAs (Decidable (∀ _ ∈ _, _ → _))

/-- A refresh of a dialog whose leg waits leaves the leg as it is. -/
def RefreshesKeepLeg (s : State) (a : Action) : Prop :=
  ∀ o ∈ s.opOf a, ∀ x ∈ o.1.offers, s.Agrees x.1 x.2

instance (s : State) (a : Action) : Decidable (RefreshesKeepLeg s a) :=
  inferInstanceAs (Decidable (∀ _ ∈ _, ∀ _ ∈ _, _))

/-! ## the invariant -/

/-- The dialog has been entered. -/
def State.Seen (s : State) (key : DialogKey) : Prop := key ∈ s.dialogs ∨ key ∈ s.torn

structure MediaInv (s : State) : Prop where
  entered : ∀ key, key ∈ s.legMedia → s.Seen key
  putting : ∀ key m, Script.Pending s.handlers (.putMedia key m) → s.Seen key ∧ s.Agrees key m
  offering : ∀ key m, Script.Pending s.handlers (.compareMedia key m) → s.Seen key
  dropping : ∀ key, Script.Pending s.handlers (.dropMedia key) → key ∈ s.torn
  parking : ∀ i room leg, Script.Pending s.handlers (.rendezvousPair i room leg) →
    i.media.bind LegMedia.bridgeLeg = some leg
  /-- The INVITE that parked a leg brings the media it was made of. -/
  coming : ∀ o i m, Script.Pending s.handlers o → o.invite = some i → i.media = some m →
    s.Agrees i.key m
  current : ∀ p ∈ s.legs, CurrentMedia s p

/-! ## one operation -/

theorem perform_seen {s : State} (ok : Bool) (op : Op) (h : s.Seen key) :
    (s.perform ok op).1.Seen key := by
  obtain hmem | htorn := h
  · have hleaves : key ∈ (s.perform ok op).1.dialogs ∨ ∃ bye top, op = .remove key bye top :=
      perform_dialogs s ok (.inl hmem)
    obtain hstill | ⟨bye, top, rfl⟩ := hleaves
    · exact Or.inl hstill
    · obtain ⟨d, hd⟩ := Option.isSome_iff_exists.mp (AList.lookup_isSome.mpr hmem)
      right
      simp [perform, hd]
  · exact Or.inr ((perform_records s ok op).1 key htorn)

theorem perform_legMedia {s : State} (h : (s.perform ok op).1.legMedia.lookup key = some m) :
    s.legMedia.lookup key = some m ∨ op = .putMedia key m := by
  cases op with
  | putMedia k m' =>
    simp only [perform] at h
    by_cases hkey : key = k
    · subst hkey
      rw [AList.lookup_insert, Option.some.injEq] at h
      exact Or.inr (by rw [h])
    · rw [AList.lookup_insert_ne hkey] at h
      exact Or.inl h
  | dropMedia k => exact Or.inl (KeyMap.within_erase _ _ _ _ h)
  | _ =>
    left
    simp only [perform] at h
    (try split at h) <;> (try split at h) <;> exact h

theorem perform_legMedia_kept {s : State} (ok : Bool) (op : Op)
    (h : key ∈ s.legMedia) : key ∈ (s.perform ok op).1.legMedia ∨ op = .dropMedia key := by
  cases op with
  | putMedia k m => exact Or.inl ((AList.mem_insert _).mpr (Or.inr h))
  | dropMedia k =>
    by_cases hkey : key = k
    · exact Or.inr (by rw [hkey])
    · exact Or.inl (AList.mem_erase.mpr ⟨hkey, h⟩)
  | _ =>
    left
    simp only [perform]
    (try split) <;> (try split) <;> exact h

theorem perform_puts {s : State} (h : .putMedia key m ∈ (s.perform ok op).2) :
    op = .compareMedia key m ∨ ∃ i, op = .establish i ∧ i.key = key ∧ i.media = some m := by
  cases op with
  | compareMedia k m' =>
    left
    simp only [perform, List.mem_append, List.mem_singleton, Op.putMedia.injEq] at h
    obtain ⟨rfl, rfl⟩ | h := h
    · rfl
    · split at h <;> simp at h
  | establish i =>
    right
    simp only [perform, Invite.mem_establishOps] at h
    obtain ⟨m', hm', heq⟩ | h | ⟨_, h⟩ | h := h
    · obtain ⟨rfl, rfl⟩ := Op.putMedia.inj heq
      exact ⟨i, rfl, rfl, hm'⟩
    all_goals contradiction
  | _ =>
    simp only [perform] at h
    (try split at h) <;> (try split at h) <;> simp at h

/-- A refresh is of a dialog in the table, and an entry is dropped for one that
was taken out of it. -/
theorem perform_offers (s : State) (ok : Bool) (op : Op) :
    (∀ key m, .compareMedia key m ∈ (s.perform ok op).2 → key ∈ s.dialogs) ∧
      ∀ key, .dropMedia key ∈ (s.perform ok op).2 → key ∈ (s.perform ok op).1.torn := by
  cases op with
  | lookUp k r =>
    simp only [perform]
    split
    · next hmem =>
      refine ⟨fun key m h => ?_, by simp⟩
      obtain ⟨_, -, heq⟩ | ⟨-, h⟩ | ⟨-, h⟩ | ⟨-, h⟩ := Refresh.mem_ops.mp h
      · exact (Op.compareMedia.inj heq).1 ▸ hmem
      all_goals contradiction
    · simp
  | remove k bye top =>
    simp only [perform]
    split <;> simp
  | _ =>
    simp only [perform]
    (try split) <;> (try split) <;> simp

/-! ## the steps -/

variable {s s' : State}

section Run

variable {n : Nat} {c : String} {op : Op} {rest : List Op}

variable {m : LegMedia} {p : PendingLeg}

theorem State.legs_run (hn : s.handlers[n]? = some ⟨c, op :: rest⟩) {ok : Bool}
    (hp : p ∈ legs (s.ran ok n c op rest)) :
    p ∈ s.legs ∨ ∃ i room leg, op = .rendezvousPair i room leg ∧ p = ⟨i.key, leg, i.codec⟩ ∧
      (s.perform ok op).2 = [.establish i] := by
  have hop := Script.pending_head hn
  obtain ⟨room, hparked | ⟨o, ho, hhand⟩⟩ := State.mem_legs.mp hp
  · obtain ⟨hold, -⟩ | rfl | ⟨i, leg, hpark⟩ := perform_parked hparked
    · exact Or.inl (State.mem_legs.mpr ⟨room, Or.inl hold⟩)
    · exact Or.inl (State.mem_legs.mpr ⟨room, Or.inr ⟨_, hop, rfl⟩⟩)
    · exact Or.inr ⟨i, room, leg, hpark⟩
  · left
    obtain ho | ho := Script.pending_set hn ho
    · exact State.mem_legs.mpr ⟨room, Or.inr ⟨o, ho, hhand⟩⟩
    · obtain hold | hold := perform_takes ho hhand
      · exact State.mem_legs.mpr ⟨room, Or.inl hold⟩
      · exact State.mem_legs.mpr ⟨room, Or.inr ⟨op, hop, hold⟩⟩

theorem State.Agrees.run {key : DialogKey} (h : s.Agrees key m) (hlife : Life s)
    (hseen : s.Seen key) (hn : s.handlers[n]? = some ⟨c, op :: rest⟩) (ok : Bool) :
    State.Agrees (s.ran ok n c op rest) key m := by
  intro p hp hkey
  obtain hold | ⟨i, room, leg, rfl, rfl, -⟩ := legs_run hn hp
  · exact h p hold hkey
  · obtain ⟨hdialogs, htorn⟩ := hlife.fresh (Script.pending_head hn) (Op.brings_of_invite rfl)
    have hkey : i.key = key := hkey
    rw [hkey] at hdialogs htorn
    exact absurd hseen (not_or.mpr ⟨hdialogs, htorn⟩)

section

variable (h : MediaInv s) (hlife : Life s) (hn : s.handlers[n]? = some ⟨c, op :: rest⟩) (ok : Bool)
include h hlife hn

theorem MediaInv.coming_run {o : Op} {i : Invite}
    (ho : Script.Pending s.handlers o) (hi : o.invite = some i) (hm : i.media = some m) :
    State.Agrees (s.ran ok n c op rest) i.key m := by
  intro p hp hkey
  obtain hold | ⟨j, room, leg, rfl, rfl, -⟩ := legs_run hn hp
  · exact h.coming o i m ho hi hm p hold hkey
  · -- the leg is parked by this very INVITE
    have hop := Script.pending_head hn
    have hkey : j.key = i.key := hkey
    have hbrings : Op.brings i.key (.rendezvousPair j room leg) = true := by
      simp [Op.brings, hkey]
    obtain rfl := hlife.brings_unique ho hop (Op.brings_of_invite hi) hbrings
    obtain rfl : j = i := Option.some.inj hi
    have hleg := h.parking j room leg hop
    rwa [hm] at hleg

theorem MediaInv.current_run (hp : p ∈ legs (s.ran ok n c op rest)) :
    CurrentMedia (s.ran ok n c op rest) p := by
  have hop := Script.pending_head hn
  obtain hold | ⟨i, room, leg, rfl, rfl, hnew⟩ := legs_run hn hp
  · obtain ⟨hsame, hthere⟩ := h.current p hold
    constructor
    · intro m hm
      obtain hm | rfl := perform_legMedia hm
      · exact hsame m hm
      · exact (h.putting _ m hop).2 p hold rfl
    · obtain hmem | ⟨o, ho, hputs⟩ | htorn := hthere
      · obtain hmem | rfl := perform_legMedia_kept ok op hmem
        · exact Or.inl hmem
        · exact Or.inr (Or.inr ((perform_records s ok _).1 _ (h.dropping _ hop)))
      · obtain rfl | ho := Script.pending_of_set hn (s.perform ok op).2 ho
        · cases o with
          | establish i =>
            simp only [Op.puts, Bool.and_eq_true, decide_eq_true_eq] at hputs
            obtain ⟨hkey, hmedia⟩ := hputs
            obtain ⟨m, hm⟩ := Option.isSome_iff_exists.mp hmedia
            refine Or.inr (Or.inl ⟨.putMedia i.key m, ?_, by simp [Op.puts, hkey]⟩)
            exact Script.pending_new hn (Invite.mem_establishOps.mpr (Or.inl ⟨m, hm, rfl⟩))
          | putMedia k m =>
            simp only [Op.puts, decide_eq_true_eq] at hputs
            left
            simp [perform, hputs]
          | _ => contradiction
        · exact Or.inr (Or.inl ⟨o, ho, hputs⟩)
      · exact Or.inr (Or.inr ((perform_records s ok op).1 _ htorn))
  · obtain ⟨hdialogs, htorn⟩ := hlife.fresh hop (Op.brings_of_invite rfl)
    constructor
    · intro m hm
      obtain hm | hm := perform_legMedia hm
      · have hmem : i.key ∈ s.legMedia := AList.lookup_isSome.mp (by rw [hm]; rfl)
        exact absurd (h.entered _ hmem) (not_or.mpr ⟨hdialogs, htorn⟩)
      · contradiction
    · have hmedia : i.media.isSome := by
        have hleg := h.parking i room leg hop
        obtain ⟨m, hm, -⟩ := Option.bind_eq_some_iff.mp hleg
        simp [hm]
      refine Or.inr (Or.inl ⟨.establish i, Script.pending_new hn ?_, by simp [Op.puts, hmedia]⟩)
      rw [hnew]
      exact List.mem_singleton.mpr rfl

theorem MediaInv.run (hkeep : ∀ x ∈ op.offers, s.Agrees x.1 x.2) :
    MediaInv (s.ran ok n c op rest) := by
  have hop := Script.pending_head hn
  obtain ⟨hoffers, hdrops⟩ := perform_offers s ok op
  constructor
  · intro key hmem
    obtain ⟨m, hm⟩ := Option.isSome_iff_exists.mp (AList.lookup_isSome.mpr hmem)
    obtain hm | rfl := perform_legMedia hm
    · exact perform_seen ok op (h.entered key (AList.lookup_isSome.mp (by rw [hm]; rfl)))
    · exact perform_seen ok _ (h.putting key m hop).1
  · intro key m ho
    obtain ho | ho := Script.pending_set hn ho
    · obtain ⟨hseen, hagrees⟩ := h.putting key m ho
      exact ⟨perform_seen ok op hseen, hagrees.run hlife hseen hn ok⟩
    · obtain rfl | ⟨i, rfl, rfl, hm⟩ := perform_puts ho
      · -- a refresh is applied: the condition
        have hseen := h.offering key m hop
        exact ⟨perform_seen ok _ hseen, (hkeep (key, m) rfl).run hlife hseen hn ok⟩
      · refine ⟨Or.inl ?_, h.coming_run hlife hn ok hop rfl hm⟩
        exact (AList.mem_insert _).mpr (Or.inl rfl)
  · intro key m ho
    obtain ho | ho := Script.pending_set hn ho
    · exact perform_seen ok op (h.offering key m ho)
    · exact perform_seen ok op (Or.inl (hoffers key m ho))
  · intro key ho
    obtain ho | ho := Script.pending_set hn ho
    · exact (perform_records s ok op).1 key (h.dropping key ho)
    · exact hdrops key ho
  · intro i room leg ho
    obtain ho | ho := Script.pending_set hn ho
    · exact h.parking i room leg ho
    · exact absurd ho ((perform_unparks s ok op).2 i room leg)
  · intro o i m ho hi hm
    obtain ho | ho := Script.pending_set hn ho
    · exact h.coming_run hlife hn ok ho hi hm
    · exact h.coming_run hlife hn ok hop (perform_invite ho hi) hm
  · exact fun p hp => h.current_run hlife hn ok hp

end

end Run

theorem Life.issued_of_seen (hlife : Life s) (h : s.Seen key) : key ∈ s.issued := by
  have honce := hlife.once key
  by_contra hnot
  rw [if_neg hnot] at honce
  obtain hmem | htorn := h
  · rw [State.present, if_pos hmem] at honce
    omega
  · have hcount := List.count_pos_iff.mpr htorn
    omega

theorem MediaInv.issued (h : MediaInv s) (hlife : Life s) (hp : p ∈ s.legs) :
    p.dialogKey ∈ s.issued := by
  obtain hmem | ⟨o, ho, hputs⟩ | htorn := (h.current p hp).there
  · exact hlife.issued_of_seen (h.entered _ hmem)
  · cases o with
    | establish i =>
      simp only [Op.puts, Bool.and_eq_true, decide_eq_true_eq] at hputs
      exact hlife.issued ho (by simp [Op.brings, hputs.1])
    | putMedia k m =>
      obtain rfl : k = p.dialogKey := by simpa [Op.puts] using hputs
      exact hlife.issued_of_seen (h.putting _ m ho).1
    | _ => contradiction
  · exact hlife.issued_of_seen (Or.inr htorn)

theorem CurrentMedia.beside (h : CurrentMedia s p) (hbeside : Beside s s')
    (hpending : ∀ o, Script.Pending s.handlers o → Script.Pending s'.handlers o) :
    CurrentMedia s' p := by
  constructor
  · rw [hbeside.legMedia]
    exact h.same
  · rw [hbeside.legMedia, hbeside.torn]
    exact h.there.imp_right (Or.imp_left fun ⟨o, ho, hputs⟩ => ⟨o, hpending o ho, hputs⟩)

/-- The first operation of a handler takes no leg and writes no media. -/
def Op.isFirst (op : Op) : Prop :=
  op.inHand = none ∧ (∀ key m, op ≠ .putMedia key m) ∧ (∀ key m, op ≠ .compareMedia key m) ∧
    ∀ key, op ≠ .dropMedia key

theorem State.legs_beside (hbeside : Beside s s') {ops : List Op}
    (hhandlers : s'.handlers = s.handlers ++ [⟨c, ops⟩]) (hops : ∀ o ∈ ops, o.inHand = none) :
    s'.legs = s.legs := by
  have hnone : ops.filterMap (fun o => o.inHand.map Prod.snd) = [] := by
    rw [List.filterMap_eq_nil_iff]
    intro o ho
    rw [hops o ho]
    rfl
  simp [legs, hbeside.pending, hhandlers, hnone]

theorem MediaInv.append (h : MediaInv s) (hlife : Life s) (hbeside : Beside s s')
    (hhandlers : s'.handlers = s.handlers ++ [⟨c, [op]⟩]) (hfirst : op.isFirst)
    (hnew : ∀ i, op.invite = some i → i.key ∉ s.issued)
    (hpark : ∀ i room leg, op = .rendezvousPair i room leg →
      i.media.bind LegMedia.bridgeLeg = some leg) : MediaInv s' := by
  have hpending : ∀ o, Script.Pending s'.handlers o ↔ Script.Pending s.handlers o ∨ o = op := by
    intro o
    rw [hhandlers, Script.pending_append, List.mem_singleton]
  obtain ⟨hhand, hput, hcompare, hdrop⟩ := hfirst
  have hlegs : s'.legs = s.legs := by
    refine State.legs_beside hbeside hhandlers fun o ho => ?_
    rw [List.mem_singleton.mp ho, hhand]
  have hseen : ∀ key, s.Seen key → s'.Seen key := by
    intro key
    rw [State.Seen, State.Seen, hbeside.dialogs, hbeside.torn]
    exact id
  constructor
  · intro key hmem
    rw [hbeside.legMedia] at hmem
    exact hseen key (h.entered key hmem)
  · intro key m ho
    obtain ho | rfl := (hpending _).mp ho
    · obtain ⟨hs, hagrees⟩ := h.putting key m ho
      refine ⟨hseen key hs, ?_⟩
      rwa [State.Agrees, hlegs]
    · exact absurd rfl (hput key m)
  · intro key m ho
    obtain ho | rfl := (hpending _).mp ho
    · exact hseen key (h.offering key m ho)
    · exact absurd rfl (hcompare key m)
  · intro key ho
    obtain ho | rfl := (hpending _).mp ho
    · rw [hbeside.torn]
      exact h.dropping key ho
    · exact absurd rfl (hdrop key)
  · intro i room leg ho
    obtain ho | ho := (hpending _).mp ho
    · exact h.parking i room leg ho
    · exact hpark i room leg ho.symm
  · intro o i m ho hi hm
    rw [State.Agrees, hlegs]
    obtain ho | rfl := (hpending _).mp ho
    · exact h.coming o i m ho hi hm
    · intro p hp hkey
      exact absurd (hkey ▸ h.issued hlife hp) (hnew i hi)
  · intro p hp
    rw [hlegs] at hp
    exact (h.current p hp).beside hbeside fun o ho => (hpending o).mpr (Or.inl ho)

theorem MediaInv.idle (h : MediaInv s) (hbeside : Beside s s') (hhandlers : s'.handlers = s.handlers) :
    MediaInv s' := by
  have hlegs : s'.legs = s.legs := by simp [legs, hbeside.pending, hhandlers]
  have hcurrent : ∀ p ∈ s.legs, CurrentMedia s' p :=
    fun p hp => (h.current p hp).beside hbeside (by simp [hhandlers])
  constructor
  all_goals simp only [State.Seen, State.Agrees, hhandlers, hlegs, hbeside.dialogs, hbeside.torn,
    hbeside.legMedia]
  · exact h.entered
  · exact h.putting
  · exact h.offering
  · exact h.dropping
  · exact h.parking
  · exact h.coming
  · exact hcurrent

theorem Invite.ops_park {i j : Invite} {room : String} {leg : BridgeLeg}
    (h : i.ops = [.rendezvousPair j room leg]) : j.media.bind LegMedia.bridgeLeg = some leg := by
  unfold Invite.ops at h
  split at h
  · simp at h
  · next leg' hleg =>
    split at h <;> simp at h
    obtain ⟨rfl, rfl, rfl⟩ := h
    exact hleg

theorem MediaInv.step (h : MediaInv s) (hlife : Life s) {a : Action} (hok : RefreshesKeepLeg s a)
    (hstep : s.step a = some s') : MediaInv s' := by
  cases State.moves hstep with
  | run hn hop hs' =>
    subst hs'
    exact h.run hlife hn _ (hok _ hop)
  | @invite i hnew hbeside hhandlers =>
    obtain ⟨o, hops, ho⟩ := i.ops_eq
    have hpark : ∀ j room leg, o = .rendezvousPair j room leg →
        j.media.bind LegMedia.bridgeLeg = some leg := by
      rintro j room leg rfl
      exact Invite.ops_park hops
    rw [hops] at hhandlers
    obtain rfl | rfl | rfl | ⟨room, leg, -, rfl⟩ := ho
    all_goals
      refine h.append hlife hbeside hhandlers (by simp [Op.isFirst, Op.inHand]) ?_ hpark
      rintro j hj
      obtain rfl := Option.some.inj hj
      exact hnew
  | @request _ op hop hbeside hhandlers =>
    have hinvite : op.invite = none := by
      cases op <;> first | contradiction | rfl
    refine h.append hlife hbeside hhandlers ?_ (by simp [hinvite]) ?_
    · cases op <;> first | contradiction | simp [Op.isFirst, Op.inHand]
    · rintro i room leg rfl
      contradiction
  | idle hbeside hhandlers => exact h.idle hbeside hhandlers

/-! ## the result -/

/-- **Current media at pairing.**  In every run in which each refresh of a
dialog whose leg waits, or has been taken out to be paired, leaves the bridge
leg as it was parked: the leg that is handed to the fabric is the one of the
dialog's entry. -/
theorem handsCurrentMedia_of_refreshesKeepLeg (guarded : Bool) (records : List DialogRecord)
    (acts : List Action) (s : State)
    (hexec : exec step (restore guarded records) acts = some s)
    (hkeep : Meets step RefreshesKeepLeg (restore guarded records) acts) :
    HandsCurrentMedia s := by
  have h0 : MediaInv (restore guarded records) := by
    constructor <;> simp [restore, Script.Pending, legs]
  have h : Life s ∧ MediaInv s := by
    refine exec_invariant_of_meets (I := fun s => Life s ∧ MediaInv s) ?_ hexec hkeep
      ⟨Life.restore guarded records, h0⟩
    rintro s a s' ⟨hlife, hmedia⟩ hok hstep
    exact ⟨hlife.step hstep, hmedia.step hlife hok hstep⟩
  intro n ok i room p hop
  have hpending : Script.Pending s.handlers (.connect i room p) := by
    simp only [State.opOf, Option.map_eq_some_iff, Option.bind_eq_some_iff, Prod.mk.injEq] at hop
    obtain ⟨o, ⟨g, hg, ho⟩, rfl, -⟩ := hop
    exact ⟨g, List.mem_of_getElem? hg, List.mem_of_mem_head? ho⟩
  exact h.2.current p (State.mem_legs.mpr ⟨room, Or.inr ⟨_, hpending, rfl⟩⟩)

/-- A caller waits, sends a re-INVITE with this media, and a partner takes its leg. -/
def refreshedThenPaired (r : Refresh) (steps : Nat) : List Action :=
  .invite (.into "r" "a" 1 .pcmu) :: Action.runs 0 5 ++
    .refresh ("a", "1", "2") r :: Action.runs 1 steps ++
    .invite (.into "r" "b" 2 .pcmu) :: Action.runs 2 1

/-- The re-INVITE offers the media the caller has. -/
theorem handsCurrentMedia_unmoved : ∃ s p, exec step (restore false [])
        (refreshedThenPaired ⟨true, (Invite.into "r" "a" 1 .pcmu).media, false⟩ 5) = some s ∧
      s.opOf (.run 2 true) = some (.connect (.into "r" "b" 2 .pcmu) "r" p, true) ∧
      p.dialogKey ∈ s.legMedia ∧ CurrentMedia s p := by
  have hrun : (exec step (restore false [])
      (refreshedThenPaired ⟨true, (Invite.into "r" "a" 1 .pcmu).media, false⟩ 5)).map
      (fun s => (s.opOf (.run 2 true), decide (("a", "1", "2") ∈ s.legMedia))) =
      some (some (.connect (.into "r" "b" 2 .pcmu) "r"
        ⟨("a", "1", "2"), ⟨1, .v4 0x7F000001#32 4000, none, 8000, none⟩, some .pcmu⟩, true), true) := by
    decide +kernel
  obtain ⟨s, hexec, hs⟩ := Option.map_eq_some_iff.mp hrun
  simp only [Prod.mk.injEq, decide_eq_true_eq] at hs
  obtain ⟨hop, hmem⟩ := hs
  have hcurrent := handsCurrentMedia_of_refreshesKeepLeg false []
    (refreshedThenPaired ⟨true, (Invite.into "r" "a" 1 .pcmu).media, false⟩ 5) s hexec
    (by decide +kernel)
  exact ⟨s, _, hexec, hop, hmem, hcurrent 2 true _ _ _ hop⟩

/-- The re-INVITE moves the media: the partner is bridged to where the caller
was. -/
theorem stale_leg_handed_over :
    ¬ ∀ (guarded : Bool) (records : List DialogRecord) (acts : List Action) (s : State),
      exec step (restore guarded records) acts = some s → HandsCurrentMedia s := by
  intro h
  have hrun : (exec step (restore false []) (refreshedThenPaired (.moving false) 7)).map
      (fun s => (s.opOf (.run 2 true), s.legMedia.lookup ("a", "1", "2"))) =
      some (some (.connect (.into "r" "b" 2 .pcmu) "r"
        ⟨("a", "1", "2"), ⟨1, .v4 0x7F000001#32 4000, none, 8000, none⟩, some .pcmu⟩, true),
        (Refresh.moving false).media) := by
    decide +kernel
  obtain ⟨s, hexec, hs⟩ := Option.map_eq_some_iff.mp hrun
  obtain ⟨hop, hentry⟩ := Prod.mk.inj hs
  have hcurrent := h false [] _ s hexec 2 true _ _ _ hop
  exact absurd (hcurrent.same _ hentry) (by decide)

end SmithsNet.Uas.Calls
