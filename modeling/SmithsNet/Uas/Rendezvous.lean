import SmithsNet.Uas.Lifecycle

/-!
# SmithsNet.Uas.Rendezvous

Legs that wait in a room for a partner.  The first caller's leg is parked, the
next caller takes it and asks the media fabric to connect the two, and when
that fails it parks the leg again.  Tearing a dialog down unparks its leg.

`rendezvous_kept`: in a run in which a leg is parked again only where no other
leg waits by then, and only while its own dialog is still there, every parked
leg is of a dialog in the table, and no leg that waits is lost before it is
paired or its dialog torn down.
`waiting_leg_overwritten`: meanwhile a third caller may have parked its leg.
-/

namespace SmithsNet.Uas.Calls

open Lib SmithsNet.Core Attach
open State (perform restore step)

/-- The INVITE an operation belongs to, until its dialog is entered. -/
def Op.invite : Op → Option Invite
  | bridgeWebrtc i | joinConference i | rendezvousPair i _ _ | connect i _ _ | establish i => some i
  | _ => none

/-- The waiting leg an operation has taken out of its room. -/
def Op.inHand : Op → Option (String × PendingLeg)
  | connect _ room p | repark room p => some (room, p)
  | _ => none

/-- The dialog's leg is parked in the room. -/
def State.Parked (s : State) (room : String) (key : DialogKey) : Prop :=
  ∃ p, s.pending.lookup room = some p ∧ p.dialogKey = key

/-- The dialog's leg has been taken out of the room, to be paired. -/
def State.Pairing (s : State) (room : String) (key : DialogKey) : Prop :=
  ∃ o p, Script.Pending s.handlers o ∧ o.inHand = some (room, p) ∧ p.dialogKey = key

/-- The leg that waited has been paired. -/
def State.Paired (s : State) (key : DialogKey) : Prop := ∃ other, (key, other) ∈ s.pairs

/-- Every parked leg is of a dialog that is in the table, or that a handler is
just entering or unparking; a leg that waited is still parked, or in the hands
of a pairing, or has been paired, or its dialog has been torn down. -/
structure RendezvousKept (s : State) : Prop where
  parked : ∀ room p, s.pending.lookup room = some p →
    s.Alive p.dialogKey ∨ Script.Pending s.handlers (.unpark p.dialogKey room)
  waiting : ∀ room key, (room, key) ∈ s.waited →
    s.Parked room key ∨ s.Pairing room key ∨ s.Paired key ∨ key ∈ s.torn

/-- The same when no handler is at work. -/
structure RendezvousAtRest (s : State) : Prop where
  parked : ∀ room p, s.pending.lookup room = some p → p.dialogKey ∈ s.dialogs
  waiting : ∀ room key, (room, key) ∈ s.waited → s.Parked room key ∨ s.Paired key ∨ key ∈ s.torn

theorem RendezvousKept.atRest {s : State} (h : RendezvousKept s) (hquiet : Script.Quiet s.handlers) :
    RendezvousAtRest s := by
  constructor
  · intro room p hp
    obtain halive | hpending := h.parked room p hp
    · exact halive.of_quiet hquiet
    · exact absurd hpending hquiet.not_pending
  · intro room key hmem
    obtain hparked | ⟨o, p, ho, _⟩ | hrest := h.waiting room key hmem
    · exact Or.inl hparked
    · exact absurd ho hquiet.not_pending
    · exact Or.inr hrest

/-- The leg an operation parks again, and the room. -/
def Op.reparks : Op → Option (String × PendingLeg)
  | repark room p => some (room, p)
  | _ => none

/-- A leg may be parked again: whatever waits in the room by now is of a dialog
that has been torn down, and its own dialog is still there to unpark it. -/
def State.Reparkable (s : State) (room : String) (p : PendingLeg) : Prop :=
  (∀ q ∈ s.pending.lookup room, q.dialogKey ∈ s.torn) ∧
    (s.Alive p.dialogKey ∨ Script.Pending s.handlers (.unpark p.dialogKey room))

instance (s : State) (room : String) (p : PendingLeg) : Decidable (s.Reparkable room p) :=
  inferInstanceAs (Decidable (_ ∧ _))

/-- Every leg that is parked again may be. -/
def ReparksSafe (s : State) (a : Action) : Prop :=
  ∀ o ∈ s.opOf a, ∀ l ∈ o.1.reparks, s.Reparkable l.1 l.2

instance (s : State) (a : Action) : Decidable (ReparksSafe s a) :=
  inferInstanceAs (Decidable (∀ _ ∈ _, ∀ _ ∈ _, _))

/-! ## the invariant -/

/-- The leg is parked in the room, or has been taken out of it. -/
def State.Leg (s : State) (room : String) (p : PendingLeg) : Prop :=
  s.pending.lookup room = some p ∨ ∃ o, Script.Pending s.handlers o ∧ o.inHand = some (room, p)

/-- Wherever the dialog is, it is of this room. -/
structure Roomed (s : State) (room : String) (key : DialogKey) : Prop where
  issued : key ∈ s.issued
  entered : ∀ d, s.dialogs.lookup key = some d → d.rendezvous = some room
  coming : ∀ o i, Script.Pending s.handlers o → o.invite = some i → i.key = key →
    i.room = some room

structure RoomInv (s : State) : Prop where
  /-- One key is of one INVITE. -/
  same : ∀ o o' i j, Script.Pending s.handlers o → Script.Pending s.handlers o' →
    o.invite = some i → o'.invite = some j → i.key = j.key → i = j
  rooms : ∀ i room leg, Script.Pending s.handlers (.rendezvousPair i room leg) → i.room = some room
  legs : ∀ room p, s.Leg room p → Roomed s room p.dialogKey
  unparking : ∀ key room, Script.Pending s.handlers (.unpark key room) → key ∈ s.torn
  kept : RendezvousKept s

/-! ## one operation -/

variable {ok : Bool} {i : Invite} {op o : Op} {p : PendingLeg} {room : String}

theorem Op.brings_of_invite (h : op.invite = some i) : op.brings i.key = true := by
  cases op <;> simp_all [Op.invite, Op.brings]

theorem perform_invite {s : State}
    (ho : o ∈ (s.perform ok op).2) (hi : o.invite = some i) : op.invite = some i := by
  obtain ⟨hbrings, _⟩ := perform_brings ho (Op.brings_of_invite hi)
  cases op with
  | rendezvousPair j room leg =>
    simp only [perform] at ho
    split at ho <;> simp_all [Op.invite]
  | connect j room p =>
    simp only [perform] at ho
    split at ho
    · split at ho <;> simp at ho <;> obtain rfl | rfl | rfl := ho <;> simp_all [Op.invite]
    · simp at ho
      subst ho
      contradiction
  | bridgeWebrtc j | joinConference j =>
    simp only [perform, List.mem_singleton] at ho
    subst ho
    exact hi
  | establish j =>
    obtain ⟨m, _, rfl⟩ | rfl | ⟨_, rfl⟩ | rfl := Invite.mem_establishOps.mp ho <;> contradiction
  | _ => contradiction

/-- What is parked was so before and is not just unparked, or is parked again, or
waits now, its dialog entered next. -/
theorem perform_parked {s : State} (h : (s.perform ok op).1.pending.lookup room = some p) :
    s.pending.lookup room = some p ∧ op ≠ .unpark p.dialogKey room ∨ op = .repark room p ∨
      ∃ i leg, op = .rendezvousPair i room leg ∧ p = ⟨i.key, leg, i.codec⟩ ∧
        (s.perform ok op).2 = [.establish i] := by
  cases op with
  | rendezvousPair i room' leg =>
    simp only [perform] at h ⊢
    split at h
    · exact Or.inl ⟨KeyMap.within_erase _ _ _ _ h, by simp⟩
    · next hnone =>
      by_cases hroom : room = room'
      · subst hroom
        rw [AList.lookup_insert, Option.some.injEq] at h
        exact Or.inr (Or.inr ⟨i, leg, rfl, h.symm, by simp⟩)
      · rw [AList.lookup_insert_ne hroom] at h
        exact Or.inl ⟨h, by simp⟩
  | repark room' q =>
    simp only [perform] at h
    by_cases hroom : room = room'
    · subst hroom
      rw [AList.lookup_insert, Option.some.injEq] at h
      exact Or.inr (Or.inl (by rw [h]))
    · rw [AList.lookup_insert_ne hroom] at h
      exact Or.inl ⟨h, by simp⟩
  | unpark k room' =>
    left
    simp only [perform] at h
    split at h
    · next q hq =>
      split at h
      · refine ⟨KeyMap.within_erase _ _ _ _ h, ?_⟩
        rintro heq
        obtain ⟨rfl, rfl⟩ := Op.unpark.inj heq
        rw [AList.lookup_erase] at h
        contradiction
      · next hkey =>
        refine ⟨h, ?_⟩
        rintro heq
        obtain ⟨rfl, rfl⟩ := Op.unpark.inj heq
        rw [hq, Option.some.injEq] at h
        exact hkey (by rw [h])
    · next hnone =>
      refine ⟨h, ?_⟩
      rintro heq
      obtain ⟨rfl, rfl⟩ := Op.unpark.inj heq
      rw [hnone] at h
      contradiction
  | _ =>
    left
    simp only [perform] at h
    (try split at h) <;> (try split at h) <;> exact ⟨h, by simp⟩

theorem perform_unparked {s : State} (ok : Bool) (op : Op) (h : s.pending.lookup room = some p) :
    (s.perform ok op).1.pending.lookup room = some p ∨
      (∃ i, .connect i room p ∈ (s.perform ok op).2) ∨ (∃ q, op = .repark room q) ∨
      op = .unpark p.dialogKey room := by
  cases op with
  | rendezvousPair i room' leg =>
    by_cases hroom : room = room'
    · subst hroom
      refine Or.inr (Or.inl ⟨i, ?_⟩)
      simp [perform, h]
    · left
      simp only [perform]
      split
      · rw [AList.lookup_erase_ne hroom, h]
      · rw [AList.lookup_insert_ne hroom, h]
  | repark room' q =>
    by_cases hroom : room = room'
    · exact Or.inr (Or.inr (Or.inl ⟨q, by rw [hroom]⟩))
    · left
      simp only [perform]
      rw [AList.lookup_insert_ne hroom, h]
  | unpark k room' =>
    by_cases hroom : room = room'
    · subst hroom
      by_cases hkey : p.dialogKey = k
      · exact Or.inr (Or.inr (Or.inr (by rw [hkey])))
      · left
        simp [perform, h, hkey]
    · left
      simp only [perform]
      split
      · split
        · rw [AList.lookup_erase_ne hroom, h]
        · exact h
      · exact h
  | _ =>
    left
    simp only [perform]
    (try split) <;> (try split) <;> exact h

theorem perform_records (s : State) (ok : Bool) (op : Op) :
    (∀ key ∈ s.torn, key ∈ (s.perform ok op).1.torn) ∧
      (∀ pair ∈ s.pairs, pair ∈ (s.perform ok op).1.pairs) ∧
      ∀ room key, (room, key) ∈ (s.perform ok op).1.waited →
        (room, key) ∈ s.waited ∨ (s.perform ok op).1.Parked room key := by
  cases op with
  | rendezvousPair i room' leg =>
    simp only [perform]
    split
    · simp +contextual
    · refine ⟨fun _ h => h, fun _ h => h, fun room key h => ?_⟩
      obtain h | h := List.mem_append.mp h
      · exact Or.inl h
      · obtain ⟨rfl, rfl⟩ := Prod.mk.inj (List.mem_singleton.mp h)
        exact Or.inr ⟨_, AList.lookup_insert s.pending, rfl⟩
  | _ =>
    simp only [perform]
    (try split) <;> (try split) <;> simp +contextual

theorem perform_inHand {s : State} (ok : Bool) (h : op.inHand = some (room, p)) :
    (∃ other, (p.dialogKey, other) ∈ (s.perform ok op).1.pairs) ∨
      .repark room p ∈ (s.perform ok op).2 ∨
      (s.perform ok op).1.pending.lookup room = some p := by
  cases op with
  | connect i room' q =>
    obtain ⟨rfl, rfl⟩ : room' = room ∧ q = p := by simpa [Op.inHand] using h
    simp only [perform]
    split
    · split <;> exact Or.inl ⟨i.key, List.mem_append_right _ (List.mem_singleton.mpr rfl)⟩
    · exact Or.inr (Or.inl (List.mem_singleton.mpr rfl))
  | repark room' q =>
    obtain ⟨rfl, rfl⟩ : room' = room ∧ q = p := by simpa [Op.inHand] using h
    exact Or.inr (Or.inr (AList.lookup_insert s.pending))
  | _ => contradiction

theorem perform_takes {s : State} (ho : o ∈ (s.perform ok op).2) (h : o.inHand = some (room, p)) :
    s.pending.lookup room = some p ∨ op.inHand = some (room, p) := by
  cases op with
  | rendezvousPair i room' leg =>
    simp only [perform] at ho
    split at ho
    · next q hq =>
      obtain rfl := List.mem_singleton.mp ho
      obtain ⟨rfl, rfl⟩ : room' = room ∧ q = p := by simpa [Op.inHand] using h
      exact Or.inl hq
    · obtain rfl := List.mem_singleton.mp ho
      contradiction
  | connect i room' q =>
    right
    simp only [perform] at ho
    split at ho
    · split at ho <;> simp at ho <;> obtain rfl | rfl | rfl := ho <;> contradiction
    · obtain rfl := List.mem_singleton.mp ho
      exact h
  | establish i =>
    obtain ⟨m, _, rfl⟩ | rfl | ⟨_, rfl⟩ | rfl := Invite.mem_establishOps.mp ho <;> contradiction
  | _ =>
    simp only [perform] at ho
    (try split at ho) <;> (try split at ho) <;> simp at ho
    all_goals grind [Op.inHand]

theorem perform_unparks (s : State) (ok : Bool) (op : Op) :
    (∀ key room, .unpark key room ∈ (s.perform ok op).2 → key ∈ (s.perform ok op).1.torn) ∧
      ∀ i room leg, .rendezvousPair i room leg ∉ (s.perform ok op).2 := by
  cases op with
  | remove k bye top =>
    simp only [perform]
    split
    · next d hd =>
      refine ⟨fun key room hmem => ?_, by simp⟩
      have hkey : d.rendezvous = some room ∧ k = key := by simpa using hmem
      simp [hkey.2]
    · simp
  | _ =>
    simp only [perform]
    (try split) <;> (try split) <;> simp

/-! ## the steps -/

variable {s s' : State}

section Run

variable {n : Nat} {c : String} {op : Op} {rest : List Op}

variable {key : DialogKey} {p : PendingLeg} {room : String}

theorem Roomed.run (h : Roomed s room key)
    (hn : s.handlers[n]? = some ⟨c, op :: rest⟩) (ok : Bool) :
    Roomed (s.ran ok n c op rest) room key := by
  have hop := Script.pending_head hn
  constructor
  · rw [State.withHandlers_issued, (perform_frame s ok op).1]
    exact h.issued
  · intro d hd
    rw [State.withHandlers_dialogs] at hd
    cases op with
    | establish i =>
      simp only [perform] at hd
      by_cases hkey : key = i.key
      · subst hkey
        rw [AList.lookup_insert, Option.some.injEq] at hd
        subst hd
        exact h.coming _ i hop rfl rfl
      · rw [AList.lookup_insert_ne hkey] at hd
        exact h.entered d hd
    | confirm k =>
      simp only [perform] at hd
      split at hd
      · next d₀ hd₀ =>
        by_cases hkey : key = k
        · subst hkey
          rw [AList.lookup_insert, Option.some.injEq] at hd
          subst hd
          exact h.entered d₀ hd₀
        · rw [AList.lookup_insert_ne hkey] at hd
          exact h.entered d hd
      · exact h.entered d hd
    | remove k bye top =>
      simp only [perform] at hd
      split at hd
      · exact h.entered d (KeyMap.within_erase _ _ _ _ hd)
      · exact h.entered d hd
    | _ =>
      refine h.entered d ?_
      simp only [perform] at hd
      (try split at hd) <;> (try split at hd) <;> exact hd
  · intro o i ho hi hkey
    obtain ho | ho := Script.pending_set hn ho
    · exact h.coming o i ho hi hkey
    · exact h.coming op i hop (perform_invite ho hi) hkey

section

variable (h : RoomInv s)
include h

theorem RoomInv.legs_run (hlife : Life s) (hn : s.handlers[n]? = some ⟨c, op :: rest⟩) (ok : Bool)
    (hleg : State.Leg (s.ran ok n c op rest) room p) :
    Roomed (s.ran ok n c op rest) room p.dialogKey := by
  have hop := Script.pending_head hn
  obtain hparked | ⟨o, ho, hhand⟩ := hleg
  · obtain ⟨hold, _⟩ | rfl | ⟨i, leg, rfl, rfl, _⟩ := perform_parked hparked
    · exact (h.legs room p (Or.inl hold)).run hn ok
    · exact (h.legs room p (Or.inr ⟨_, hop, rfl⟩)).run hn ok
    · have hbrings : Op.brings i.key (.rendezvousPair i room leg) = true :=
        Op.brings_of_invite rfl
      have hroomed : Roomed s room i.key := by
        refine ⟨hlife.issued hop hbrings, fun d hd => ?_, fun o j ho hj hkey => ?_⟩
        · exact absurd (AList.lookup_isSome.mp (by rw [hd]; rfl)) (hlife.fresh hop hbrings).1
        · obtain rfl := h.same _ o i j hop ho rfl hj hkey.symm
          exact h.rooms i room leg hop
      exact hroomed.run hn ok
  · obtain ho | ho := Script.pending_set hn ho
    · exact (h.legs room p (Or.inr ⟨o, ho, hhand⟩)).run hn ok
    · obtain hold | hold := perform_takes ho hhand
      · exact (h.legs room p (Or.inl hold)).run hn ok
      · exact (h.legs room p (Or.inr ⟨op, hop, hold⟩)).run hn ok

theorem RoomInv.parked_run (hn : s.handlers[n]? = some ⟨c, op :: rest⟩) (ok : Bool)
    (hsafe : ∀ l ∈ op.reparks, s.Reparkable l.1 l.2)
    (hparked : (s.perform ok op).1.pending.lookup room = some p) :
    State.Alive (s.ran ok n c op rest) p.dialogKey ∨
      Script.Pending (s.handlers.set n ⟨c, (s.perform ok op).2 ++ rest⟩)
        (.unpark p.dialogKey room) := by
  obtain ⟨hold, hne⟩ | rfl | ⟨i, leg, rfl, rfl, hnew⟩ := perform_parked hparked
  · obtain halive | hpending := h.kept.parked room p hold
    · by_cases hremove : (∃ bye top, op = .remove p.dialogKey bye top) ∧ p.dialogKey ∈ s.dialogs
      · obtain ⟨⟨bye, top, rfl⟩, hmem⟩ := hremove
        obtain ⟨d, hd⟩ := Option.isSome_iff_exists.mp (AList.lookup_isSome.mpr hmem)
        have hroom := (h.legs room p (Or.inl hold)).entered d hd
        refine Or.inr (Script.pending_new hn ?_)
        simp [perform, hd, hroom]
      · refine Or.inl (halive.run hn ok ?_)
        rintro bye top rfl hmem
        exact hremove ⟨⟨bye, top, rfl⟩, hmem⟩
    · obtain rfl | hpending := Script.pending_of_set hn (s.perform ok op).2 hpending
      · exact absurd rfl hne
      · exact Or.inr hpending
  · -- parked again: the condition
    obtain ⟨_, halive | hpending⟩ := hsafe (room, p) rfl
    · exact Or.inl (halive.run hn ok (by simp))
    · exact Or.inr ((Script.pending_of_set hn _ hpending).resolve_left (by simp))
  · left
    right
    rw [State.ran, hnew]
    obtain ⟨g, hg, ho⟩ : Script.Pending (s.handlers.set n ⟨c, [.establish i] ++ rest⟩)
        (.establish i) := Script.pending_new hn (List.mem_singleton.mpr rfl)
    exact ⟨g, hg, .establish i, ho, by simp [Op.enters]⟩

theorem RoomInv.waiting_run (hn : s.handlers[n]? = some ⟨c, op :: rest⟩) (ok : Bool)
    (hsafe : ∀ l ∈ op.reparks, s.Reparkable l.1 l.2) (hwaited : (room, key) ∈ s.waited) :
    (s.perform ok op).1.Parked room key ∨
      State.Pairing (s.ran ok n c op rest) room key ∨
      (s.perform ok op).1.Paired key ∨ key ∈ (s.perform ok op).1.torn := by
  have hop := Script.pending_head hn
  obtain ⟨htorn, hpairs, _⟩ := perform_records s ok op
  obtain ⟨p, hp, rfl⟩ | ⟨o, p, ho, hhand, rfl⟩ | ⟨other, hpair⟩ | hgone :=
    h.kept.waiting room key hwaited
  · obtain hstill | ⟨i, hconnect⟩ | ⟨q, rfl⟩ | rfl := perform_unparked ok op hp
    · exact Or.inl ⟨p, hstill, rfl⟩
    · exact Or.inr (Or.inl ⟨_, p, Script.pending_new hn hconnect, rfl, rfl⟩)
    · -- written over: the condition
      exact Or.inr (Or.inr (Or.inr (htorn _ ((hsafe (room, q) rfl).1 p hp))))
    · exact Or.inr (Or.inr (Or.inr (htorn _ (h.unparking _ room hop))))
  · obtain rfl | ho := Script.pending_of_set hn (s.perform ok op).2 ho
    · obtain ⟨other, hpair⟩ | hrepark | hparked := perform_inHand ok hhand
      · exact Or.inr (Or.inr (Or.inl ⟨other, hpair⟩))
      · exact Or.inr (Or.inl ⟨_, p, Script.pending_new hn hrepark, rfl, rfl⟩)
      · exact Or.inl ⟨p, hparked, rfl⟩
    · exact Or.inr (Or.inl ⟨o, p, ho, hhand, rfl⟩)
  · exact Or.inr (Or.inr (Or.inl ⟨other, hpairs _ hpair⟩))
  · exact Or.inr (Or.inr (Or.inr (htorn _ hgone)))

theorem RoomInv.run (hlife : Life s) (hn : s.handlers[n]? = some ⟨c, op :: rest⟩)
    (ok : Bool) (hsafe : ∀ l ∈ op.reparks, s.Reparkable l.1 l.2) :
    RoomInv (s.ran ok n c op rest) := by
  have hop := Script.pending_head hn
  obtain ⟨hunparks, hback⟩ := perform_unparks s ok op
  obtain ⟨htorn, _, hwaits⟩ := perform_records s ok op
  -- an operation of an INVITE that is pending now stands for one that was
  have hinvite : ∀ o i, Script.Pending (s.handlers.set n ⟨c, (s.perform ok op).2 ++ rest⟩) o →
      o.invite = some i → ∃ o₀, Script.Pending s.handlers o₀ ∧ o₀.invite = some i := by
    intro o i ho hi
    obtain ho | ho := Script.pending_set hn ho
    · exact ⟨o, ho, hi⟩
    · exact ⟨op, hop, perform_invite ho hi⟩
  constructor
  · intro o o' i j ho ho' hi hj hkey
    obtain ⟨o₀, ho₀, hi⟩ := hinvite o i ho hi
    obtain ⟨o₁, ho₁, hj⟩ := hinvite o' j ho' hj
    exact h.same o₀ o₁ i j ho₀ ho₁ hi hj hkey
  · intro i room leg ho
    obtain ho | ho := Script.pending_set hn ho
    · exact h.rooms i room leg ho
    · exact absurd ho (hback i room leg)
  · exact fun room p hleg => h.legs_run hlife hn ok hleg
  · intro key room ho
    obtain ho | ho := Script.pending_set hn ho
    · exact htorn key (h.unparking key room ho)
    · exact hunparks key room ho
  · constructor
    · exact fun room p hparked => h.parked_run hn ok hsafe hparked
    · intro room key hwaited
      obtain hold | hparked := hwaits room key hwaited
      · exact h.waiting_run hn ok hsafe hold
      · exact Or.inl hparked

end

end Run

theorem RoomInv.append (h : RoomInv s) (hlife : Life s) (hbeside : Beside s s') {c : String}
    (hhandlers : s'.handlers = s.handlers ++ [⟨c, [op]⟩])
    (hnew : ∀ i, op.invite = some i → i.key ∉ s.issued)
    (hroom : ∀ i room leg, op = .rendezvousPair i room leg → i.room = some room)
    (hhand : op.inHand = none) (hunpark : ∀ key room, op ≠ .unpark key room) : RoomInv s' := by
  have hpending : ∀ o, Script.Pending s'.handlers o ↔ Script.Pending s.handlers o ∨ o = op := by
    intro o
    rw [hhandlers, Script.pending_append, List.mem_singleton]
  have hissued : ∀ o i, Script.Pending s.handlers o → o.invite = some i → i.key ∈ s.issued :=
    fun o i ho hi => hlife.issued ho (Op.brings_of_invite hi)
  constructor
  · intro o o' i j ho ho' hi hj hkey
    obtain ho | rfl := (hpending o).mp ho
    · obtain ho' | rfl := (hpending o').mp ho'
      · exact h.same o o' i j ho ho' hi hj hkey
      · exact absurd (hkey ▸ hissued o i ho hi) (hnew j hj)
    · obtain ho' | rfl := (hpending o').mp ho'
      · exact absurd (hkey ▸ hissued o' j ho' hj) (hnew i hi)
      · exact Option.mem_unique hi hj
  · intro i room leg ho
    obtain ho | ho := (hpending _).mp ho
    · exact h.rooms i room leg ho
    · exact hroom i room leg ho.symm
  · intro room p hleg
    have hold : s.Leg room p := by
      obtain hparked | ⟨o, ho, hheld⟩ := hleg
      · exact Or.inl (hbeside.pending ▸ hparked)
      · obtain ho | rfl := (hpending o).mp ho
        · exact Or.inr ⟨o, ho, hheld⟩
        · rw [hhand] at hheld
          contradiction
    have hroomed := h.legs room p hold
    refine ⟨hbeside.issued _ hroomed.issued, ?_, ?_⟩
    · rw [hbeside.dialogs]
      exact hroomed.entered
    · intro o i ho hi hkey
      obtain ho | rfl := (hpending o).mp ho
      · exact hroomed.coming o i ho hi hkey
      · exact absurd (hkey ▸ hroomed.issued) (hnew i hi)
  · intro key room ho
    rw [hbeside.torn]
    obtain ho | ho := (hpending _).mp ho
    · exact h.unparking key room ho
    · exact absurd ho.symm (hunpark key room)
  · constructor
    · intro room p hparked
      rw [hbeside.pending] at hparked
      obtain halive | ho := h.kept.parked room p hparked
      · exact Or.inl (halive.append _ hbeside.dialogs hhandlers)
      · exact Or.inr ((hpending _).mpr (Or.inl ho))
    · intro room key hwaited
      rw [hbeside.waited] at hwaited
      obtain hparked | ⟨o, p, ho, hheld⟩ | hpaired | hgone := h.kept.waiting room key hwaited
      · left
        rwa [State.Parked, hbeside.pending]
      · exact Or.inr (Or.inl ⟨o, p, (hpending o).mpr (Or.inl ho), hheld⟩)
      · right; right; left
        rwa [State.Paired, hbeside.pairs]
      · right; right; right
        rwa [hbeside.torn]

theorem RoomInv.idle (h : RoomInv s) (hbeside : Beside s s') (hhandlers : s'.handlers = s.handlers) :
    RoomInv s' := by
  constructor
  · rw [hhandlers]
    exact h.same
  · rw [hhandlers]
    exact h.rooms
  · intro room p hleg
    rw [State.Leg, hhandlers, hbeside.pending] at hleg
    have hroomed := h.legs room p hleg
    refine ⟨hbeside.issued _ hroomed.issued, ?_, ?_⟩
    · rw [hbeside.dialogs]
      exact hroomed.entered
    · rw [hhandlers]
      exact hroomed.coming
  · rw [hhandlers, hbeside.torn]
    exact h.unparking
  · constructor
    · rw [hhandlers, hbeside.pending]
      exact fun room p hparked => (h.kept.parked room p hparked).imp_left fun halive =>
        halive.of_same hbeside.dialogs hhandlers
    · simp only [State.Parked, State.Pairing, State.Paired, hhandlers, hbeside.waited,
        hbeside.pending, hbeside.pairs, hbeside.torn]
      exact h.kept.waiting

theorem RoomInv.step (h : RoomInv s) (hlife : Life s) {a : Action} (hok : ReparksSafe s a)
    (hstep : s.step a = some s') : RoomInv s' := by
  cases State.moves hstep with
  | run hn hop hs' =>
    subst hs'
    exact h.run hlife hn _ (hok _ hop)
  | invite hnew hbeside hhandlers =>
    obtain ⟨o, hops, ho⟩ := Invite.ops_eq _
    rw [hops] at hhandlers
    obtain rfl | rfl | rfl | ⟨room, leg, hroom, rfl⟩ := ho
    all_goals
      refine h.append hlife hbeside hhandlers ?_ ?_ rfl (by simp)
      · rintro i hi
        obtain rfl := Option.some.inj hi
        exact hnew
      · simp_all
  | @request _ op hop hbeside hhandlers =>
    have hother : op.invite = none ∧ op.inHand = none := by
      cases op <;> first | contradiction | exact ⟨rfl, rfl⟩
    refine h.append hlife hbeside hhandlers (by simp [hother.1]) ?_ hother.2 ?_
    · rintro i room leg rfl
      contradiction
    · rintro key room rfl
      contradiction
  | idle hbeside hhandlers => exact h.idle hbeside hhandlers

/-! ## the result -/

/-- **Waiting legs are kept.**  In every run in which a leg is parked again only
into a room where no leg of a dialog that is still there waits, and only while
its own dialog is there or still to be unparked: every parked leg is of a
dialog in the table, up to what a handler is just entering or unparking, and
every leg that waited is still parked, being paired, paired, or torn down. -/
theorem rendezvous_kept (guarded : Bool) (records : List DialogRecord) (acts : List Action)
    (s : State) (hexec : exec step (restore guarded records) acts = some s)
    (hsafe : Meets step ReparksSafe (restore guarded records) acts) :
    RendezvousKept s ∧ (Script.Quiet s.handlers → RendezvousAtRest s) := by
  have h0 : RoomInv (restore guarded records) := by
    constructor
    · simp [restore, Script.Pending]
    · simp [restore, Script.Pending]
    · simp [restore, Script.Pending, State.Leg]
    · simp [restore, Script.Pending]
    · constructor <;> simp [restore]
  have h : Life s ∧ RoomInv s := by
    refine exec_invariant_of_meets (I := fun s => Life s ∧ RoomInv s) ?_ hexec hsafe
      ⟨Life.restore guarded records, h0⟩
    rintro s a s' ⟨hlife, hroom⟩ hok hstep
    exact ⟨hlife.step hstep, hroom.step hlife hok hstep⟩
  exact ⟨h.2.kept, fun hquiet => h.2.kept.atRest hquiet⟩

/-- The first pairing fails, and the leg is parked again for the third caller. -/
def retriedPairing : List Action :=
  .invite (.into "r" "a" 1 .pcmu) :: Action.runs 0 5 ++
    (.invite (.into "r" "b" 2 .pcmu) :: [.run 1 true, .run 1 false, .run 1 true] : List Action) ++
    .invite (.into "r" "c" 3 .pcmu) :: Action.runs 2 8

theorem rendezvous_kept_retried :
    ∃ s, exec step (restore false []) retriedPairing = some s ∧
      s.waited = [("r", "a", "1", "2")] ∧ s.pairs = [(("a", "1", "2"), ("c", "1", "2"))] ∧
      RendezvousKept s ∧ RendezvousAtRest s := by
  have hrun : (exec step (restore false []) retriedPairing).map
      (fun s => (decide (s.waited = [("r", "a", "1", "2")]),
        decide (s.pairs = [(("a", "1", "2"), ("c", "1", "2"))]),
        decide (Script.Quiet s.handlers))) = some (true, true, true) := by
    decide +kernel
  obtain ⟨s, hexec, hs⟩ := Option.map_eq_some_iff.mp hrun
  simp only [Prod.mk.injEq, decide_eq_true_eq] at hs
  obtain ⟨hwaited, hpairs, hquiet⟩ := hs
  have hkept := rendezvous_kept false [] retriedPairing s hexec (by decide +kernel)
  exact ⟨s, hexec, hwaited, hpairs, hkept.1, hkept.2 hquiet⟩

/-- While the second caller is being bridged, a third one parks its leg; then
the bridge fails. -/
def overtakenPairing : List Action :=
  .invite (.into "r" "a" 1 .pcmu) :: Action.runs 0 5 ++
    .invite (.into "r" "b" 2 .pcmu) :: Action.runs 1 1 ++
    .invite (.into "r" "c" 3 .pcmu) :: Action.runs 2 5 ++ ([.run 1 false, .run 1 true] : List Action)

/-- The leg of the third caller is written over: it waits no more, though it is
neither paired nor torn down. -/
theorem waiting_leg_overwritten :
    ¬ ∀ (guarded : Bool) (records : List DialogRecord) (acts : List Action) (s : State),
      exec step (restore guarded records) acts = some s →
      RendezvousKept s ∧ (Script.Quiet s.handlers → RendezvousAtRest s) := by
  intro h
  have hrun : (exec step (restore false []) overtakenPairing).map
      (fun s => (decide (Script.Quiet s.handlers), decide (("r", "c", "1", "2") ∈ s.waited),
        decide ((s.pending.lookup "r").map PendingLeg.dialogKey = some ("a", "1", "2")),
        decide (s.pairs = []), decide (s.torn = []))) = some (true, true, true, true, true) := by
    decide +kernel
  obtain ⟨s, hexec, hs⟩ := Option.map_eq_some_iff.mp hrun
  simp only [Prod.mk.injEq, decide_eq_true_eq] at hs
  obtain ⟨hquiet, hwaited, hparked, hpairs, htorn⟩ := hs
  have hrest := (h false [] overtakenPairing s hexec).2 hquiet
  obtain ⟨p, hp, hkey⟩ | ⟨other, hpair⟩ | hgone := hrest.waiting "r" ("c", "1", "2") hwaited
  · rw [hp, Option.map_some, hkey] at hparked
    exact absurd hparked (by decide)
  · simp [hpairs] at hpair
  · simp [htorn] at hgone

end SmithsNet.Uas.Calls
