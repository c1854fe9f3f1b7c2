import SmithsNet.Uas.Lifecycle

/-!
# SmithsNet.Uas.Pairs

Who is paired with whom, whose a bridge is, and who is owed a BYE, in every run
of the UAS.

* `Met` — a leg waits, is taken up and is paired at most once, so a dialog has
  at most one partner;
* `Bids` — only the two legs of a pair ever share a bridge;
* `Owed` — a dialog is torn down once, and sent at most one BYE.
-/

namespace SmithsNet.Uas.Calls

open Lib SmithsNet.Core Attach Op State Script

/-! ## the scripts, weighed -/

section Weighed

theorem elim_zero {α : Type} (o : Option α) : (o.elim 0 fun _ => 0) = 0 := by
  cases o <;> rfl

variable (w : Op → Nat)

@[simp] theorem total_establishOps (i : Invite) : total w i.establishOps =
    (i.media.elim 0 fun m => w (.putMedia i.key m)) + w (.spawn2xx i.key) +
      (if i.timer then w (.readGeneration i.key) else 0) + w (.armGuard i.key) := by
  cases hm : i.media <;> cases ht : i.timer <;> simp [Invite.establishOps, hm, ht, Nat.add_assoc]

@[simp] theorem total_refreshOps (r : Refresh) (key : DialogKey) : total w (r.ops key) =
    (r.media.elim 0 fun m => w (.compareMedia key m)) + (if r.invite then w (.spawn2xx key) else 0) +
      if r.timer then w (.readGeneration key) else w (.cancelSession key) := by
  cases hm : r.media <;> cases hi : r.invite <;> cases ht : r.timer <;>
    simp [Refresh.ops, hm, hi, ht, Nat.add_assoc]

@[simp] theorem total_teardownOps (key : DialogKey) (d : Dialog) (bye top : Bool) :
    total w (teardownOps key d bye top) =
      w (.cancel2xx key) + w (.cancelSession key) + w (.cancelGuard key) + w (.dropMedia key) +
        (d.rendezvous.elim 0 fun room => w (.unpark key room)) + w (.unbridge key bye top) := by
  cases hr : d.rendezvous <;> simp [teardownOps, hr, Nat.add_assoc]

@[simp] theorem total_finishOps (key : DialogKey) (bye top : Bool) (partner : Option DialogKey) :
    total w (finishOps key bye top partner) =
      w (.dropSessions key true) + (if bye then w (.sendBye key) else 0) +
        if top then partner.elim 0 fun p => w (.remove p true false) else 0 := by
  cases bye <;> cases top <;> cases partner <;> simp [finishOps, Nat.add_assoc]

end Weighed

/-! ## a dialog has one partner -/

/-- The two dialogs have been paired. -/
def State.Partner (s : State) (x y : DialogKey) : Prop := (x, y) ∈ s.pairs ∨ (y, x) ∈ s.pairs

instance (s : State) (x y : DialogKey) : Decidable (s.Partner x y) :=
  inferInstanceAs (Decidable (_ ∨ _))

variable {a : Action} {ok : Bool} {x y key : DialogKey} {rest : List Op} {n bid : Nat} {op o : Op}
    {c : String}

theorem State.Partner.symm {s : State} (h : s.Partner x y) : s.Partner y x :=
  Or.symm h

/-- How often the operation may yet pair this dialog's leg. -/
def Op.meets (key : DialogKey) : Op → Nat
  | bridgeWebrtc i | joinConference i | rendezvousPair i _ _ => if i.key = key then 1 else 0
  | connect i _ p => (if i.key = key then 1 else 0) + if p.dialogKey = key then 1 else 0
  | repark _ p => if p.dialogKey = key then 1 else 0
  | _ => 0

/-- How many rooms the dialog's leg waits in. -/
def State.parkings (s : State) (key : DialogKey) : Nat :=
  KeyMap.countVals (fun p => decide (p.dialogKey = key)) s.pending

/-- How many pairs the dialog is in. -/
def State.pairings (s : State) (key : DialogKey) : Nat :=
  total (fun q => (if q.1 = key then 1 else 0) + if q.2 = key then 1 else 0) s.pairs

theorem lawfulBEq_dialogKey : LawfulBEq DialogKey := inferInstance

attribute [local instance] lawfulBEq_dialogKey

def Met (s : State) : Prop := ∀ key,
  weigh (meets key) s.handlers + s.parkings key + s.pairings key ≤
    if key ∈ s.issued then 1 else 0

/-- A leg goes from its INVITE to the room, into a pairing and into a pair. -/
theorem perform_met (s : State) (ok : Bool) (op : Op) (key : DialogKey) :
    total (meets key) (s.perform ok op).2 + (s.perform ok op).1.parkings key +
        (s.perform ok op).1.pairings key ≤
      op.meets key + s.parkings key + s.pairings key := by
  cases op with
  | rendezvousPair i room leg =>
    simp only [perform]
    split
    · next p hp =>
      have herase := KeyMap.countVals_erase (fun q : PendingLeg => decide (q.dialogKey = key)) hp
      simp only [decide_eq_true_eq] at herase
      simp only [State.parkings, pairings, meets, total_cons, total_nil]
      omega
    · have hle := KeyMap.countVals_erase_le (fun q : PendingLeg => decide (q.dialogKey = key)) room
        s.pending
      simp only [State.parkings, pairings, meets, total_cons, total_nil,
        KeyMap.countVals_insert, decide_eq_true_eq]
      omega
  | connect i room p =>
    simp only [perform]
    split
    · split
      all_goals
        simp only [State.parkings, pairings, meets, total_append, total_cons, total_nil]
        omega
    · simp only [meets, total_cons, total_nil]
      omega
  | repark room p =>
    have hle := KeyMap.countVals_erase_le (fun q : PendingLeg => decide (q.dialogKey = key)) room
      s.pending
    simp only [perform, State.parkings, pairings, meets, total_nil,
      KeyMap.countVals_insert, decide_eq_true_eq]
    omega
  | unpark k room =>
    have hle := KeyMap.countVals_erase_le (fun q : PendingLeg => decide (q.dialogKey = key)) room
      s.pending
    simp only [perform]
    split
    · split
      · simp only [State.parkings, pairings, total_nil]
        omega
      · simp
    · simp
  | _ =>
    simp only [perform]
    (try split) <;> (try split) <;> simp [meets, State.parkings, pairings, elim_zero, Function.comp_def]

variable {s s' : State}

theorem Met.run (h : Met s) (hn : s.handlers[n]? = some ⟨c, op :: rest⟩) (ok : Bool) :
    Met (s.ran ok n c op rest) := by
  intro key
  have hold := h key
  have hmove := perform_met s ok op key
  have hweigh : weigh (meets key) (s.handlers.set n ⟨c, (s.perform ok op).2 ++ rest⟩) +
      op.meets key = weigh (meets key) s.handlers + total (meets key) (s.perform ok op).2 :=
    weigh_set hn _
  rw [State.withHandlers_issued, (perform_frame s ok op).1]
  simp only [State.parkings, pairings, State.withHandlers_handlers,
    State.withHandlers_pending, State.withHandlers_pairs] at hold hmove ⊢
  omega

theorem Met.append (h : Met s) (hbeside : Beside s s')
    (hhandlers : s'.handlers = s.handlers ++ [⟨c, [op]⟩])
    (hop : ∀ key, 0 < op.meets key → op.meets key = 1 ∧ key ∉ s.issued ∧ key ∈ s'.issued) :
    Met s' := by
  intro key
  have hold := h key
  have hweigh : weigh (meets key) s'.handlers =
      weigh (meets key) s.handlers + op.meets key := by
    rw [hhandlers, weigh_append]
    simp
  rw [hweigh, State.parkings, pairings, hbeside.pending, hbeside.pairs]
  simp only [State.parkings, pairings] at hold
  obtain hzero | hpos := Nat.eq_zero_or_pos (op.meets key)
  · by_cases hissued : key ∈ s.issued
    · rw [if_pos hissued] at hold
      rw [if_pos (hbeside.issued key hissued)]
      omega
    · rw [if_neg hissued] at hold
      split <;> omega
  · obtain ⟨hone, hnot, hmem⟩ := hop key hpos
    rw [if_neg hnot] at hold
    rw [if_pos hmem]
    omega

theorem Met.idle (h : Met s) (hbeside : Beside s s') (hhandlers : s'.handlers = s.handlers) :
    Met s' := by
  intro key
  have hold := h key
  rw [hhandlers, State.parkings, pairings, hbeside.pending, hbeside.pairs]
  simp only [State.parkings, pairings] at hold
  by_cases hissued : key ∈ s.issued
  · rw [if_pos hissued] at hold
    rwa [if_pos (hbeside.issued key hissued)]
  · rw [if_neg hissued] at hold
    split <;> omega

theorem Met.step (h : Met s) (hlife : Life s') (hstep : s.step a = some s') : Met s' := by
  cases moves hstep with
  | run hn hop hs' =>
    subst hs'
    exact h.run hn _
  | @invite i hnew hbeside hhandlers =>
    obtain ⟨o, hops, ho⟩ := i.ops_eq
    rw [hops] at hhandlers
    have hpending : Script.Pending s'.handlers o := by
      rw [hhandlers]
      exact Script.pending_append.mpr (Or.inr (List.mem_singleton.mpr rfl))
    have hissued : i.key ∈ s'.issued := by
      refine hlife.issued hpending ?_
      obtain rfl | rfl | rfl | ⟨room, leg, _, rfl⟩ := ho <;> simp [Op.brings]
    refine h.append hbeside hhandlers fun key hpos => ?_
    obtain rfl | rfl | rfl | ⟨room, leg, _, rfl⟩ := ho
    · simp [meets] at hpos
    all_goals
      simp only [meets] at hpos ⊢
      split at hpos
      · next hkey =>
        subst hkey
        exact ⟨if_pos rfl, hnew, hissued⟩
      · contradiction
  | @request _ op hop hbeside hhandlers =>
    refine h.append hbeside hhandlers fun key hpos => ?_
    cases op <;> contradiction
  | idle hbeside hhandlers => exact h.idle hbeside hhandlers

theorem Met.restore (guarded : Bool) (records : List DialogRecord) :
    Met (State.restore guarded records) := by
  intro key
  have hzero : (State.restore guarded records).parkings key = 0 := rfl
  rw [hzero]
  simp [State.restore, pairings]

theorem Met.le_one (h : Met s) (key : DialogKey) :
    weigh (meets key) s.handlers + s.parkings key + s.pairings key ≤ 1 := by
  have hkey := h key
  split at hkey <;> omega

theorem State.Partner.pairings_pos (h : s.Partner x y) : 0 < s.pairings x := by
  obtain h | h := h
  all_goals
    have hle := le_total_of_mem
      (fun q : DialogKey × DialogKey => (if q.1 = x then 1 else 0) + if q.2 = x then 1 else 0) h
    simp only [if_true] at hle
    unfold pairings
    omega

theorem Met.partner_unique (h : Met s) {z : DialogKey} (hy : s.Partner x y) (hz : s.Partner x z) :
    y = z := by
  have hone := h.le_one x
  unfold pairings at hone
  -- two different pairs would count twice, and so would a pair of one dialog with itself
  have htwo : ∀ q q' : DialogKey × DialogKey, q ∈ s.pairs → q' ∈ s.pairs → q.1 = x ∨ q.2 = x →
      q'.1 = x ∨ q'.2 = x → q = q' := by
    intro q q' hq hq' hx hx'
    by_contra hne
    have hle := add_le_total_of_mem
      (fun q : DialogKey × DialogKey => (if q.1 = x then 1 else 0) + if q.2 = x then 1 else 0)
      hq hq' hne
    obtain hx | hx := hx <;> obtain hx' | hx' := hx' <;> simp only [hx, hx', if_true] at hle <;> omega
  have hself : (x, x) ∉ s.pairs := by
    intro hmem
    have hle := le_total_of_mem
      (fun q : DialogKey × DialogKey => (if q.1 = x then 1 else 0) + if q.2 = x then 1 else 0) hmem
    simp only [if_true] at hle
    omega
  obtain hy | hy := hy <;> obtain hz | hz := hz
  · exact (Prod.mk.inj (htwo _ _ hy hz (Or.inl rfl) (Or.inl rfl))).2
  · obtain ⟨rfl, rfl⟩ := Prod.mk.inj (htwo _ _ hy hz (Or.inl rfl) (Or.inr rfl))
    exact absurd hy hself
  · obtain ⟨rfl, rfl⟩ := Prod.mk.inj (htwo _ _ hy hz (Or.inr rfl) (Or.inl rfl))
    exact absurd hy hself
  · exact (Prod.mk.inj (htwo _ _ hy hz (Or.inr rfl) (Or.inr rfl))).1

theorem Met.partner_ne (h : Met s) (hy : s.Partner x y) : x ≠ y := by
  rintro rfl
  have hone := h.le_one x
  unfold pairings at hone
  obtain hy | hy := hy
  all_goals
    have hle := le_total_of_mem
      (fun q : DialogKey × DialogKey => (if q.1 = x then 1 else 0) + if q.2 = x then 1 else 0) hy
    simp only [if_true] at hle
    omega

theorem Met.unpaired (h : Met s) (ho : Script.Pending s.handlers o)
    (hmeets : 0 < o.meets x) : ¬ s.Partner x y := by
  intro hy
  have hone := h.le_one x
  have hpos := hy.pairings_pos
  have hle := le_weigh (w := meets x) ho
  omega

/-! ## a dialog is unbridged once, and is owed at most one BYE -/

/-- How many unbridgings of this dialog the operation stands for. -/
def Op.unbridges (key : DialogKey) : Op → Nat
  | unbridge k _ _ | findBridged k _ _ _ => if k = key then 1 else 0
  | _ => 0

/-- How many BYEs to this dialog's peer the operation stands for. -/
def Op.byes (key : DialogKey) : Op → Nat
  | unbridge k true _ | findBridged k _ true _ | sendBye k => if k = key then 1 else 0
  | _ => 0

/-- BYEs sent to this dialog's peer, or still to be sent. -/
def State.owed (s : State) (key : DialogKey) : Nat :=
  s.byes.count key + weigh (Op.byes key) s.handlers

/-- The operation tears this dialog down, and a BYE is owed to its peer. -/
def Op.EndsWithBye (s : State) (key : DialogKey) (op : Op) : Prop :=
  key ∈ s.dialogs ∧ ∃ top, op = .remove key true top

structure Owed (s : State) : Prop where
  once : ∀ key, weigh (unbridges key) s.handlers ≤ s.torn.count key
  bye : ∀ key, s.owed key ≤ s.torn.count key

theorem perform_unbridges (s : State) (ok : Bool) (op : Op) (key : DialogKey) :
    total (unbridges key) (s.perform ok op).2 + s.torn.count key ≤
      op.unbridges key + (s.perform ok op).1.torn.count key := by
  cases op with
  | remove k bye top =>
    simp only [perform]
    split
    · by_cases hkey : k = key <;>
        simp [unbridges, elim_zero, hkey, Nat.add_comm]
    · simp
  | _ =>
    simp only [perform]
    (try split) <;> (try split) <;> simp [unbridges, elim_zero, Function.comp_def]

/-- A BYE that is owed stays owed until it is sent, and only a teardown owes one. -/
theorem perform_byes (s : State) (ok : Bool) (op : Op) (key : DialogKey) :
    s.byes.count key + op.byes key ≤
        (s.perform ok op).1.byes.count key + total (Op.byes key) (s.perform ok op).2 ∧
      (s.perform ok op).1.byes.count key + total (Op.byes key) (s.perform ok op).2 +
          s.torn.count key ≤
        s.byes.count key + op.byes key + (s.perform ok op).1.torn.count key := by
  cases op with
  | remove k bye top =>
    simp only [perform]
    split
    · cases bye <;> by_cases hkey : k = key <;> simp [Op.byes, elim_zero, hkey]
      omega
    · simp [Op.byes]
  | unbridge k bye top =>
    cases bye <;> simp only [perform] <;> split <;> simp [Op.byes]
  | findBridged k bid bye top =>
    cases bye <;> simp [perform, Op.byes, elim_zero, Function.comp_def]
  | sendBye k => by_cases hkey : k = key <;> simp [perform, Op.byes, hkey]
  | _ =>
    simp only [perform]
    (try split) <;> (try split) <;> simp [Op.byes, elim_zero]

theorem total_byes_of_ends {s : State}
    (h : op.EndsWithBye s key) : 1 ≤ total (Op.byes key) (s.perform ok op).2 := by
  obtain ⟨hmem, top, rfl⟩ := h
  obtain ⟨d, hd⟩ := Option.isSome_iff_exists.mp (AList.lookup_isSome.mpr hmem)
  simp [perform, hd, Op.byes]

section Run

variable {n : Nat} {c : String} {op : Op} {rest : List Op}

section

variable (hn : s.handlers[n]? = some ⟨c, op :: rest⟩) (ok : Bool)
include hn

theorem owed_run (key : DialogKey) : State.owed (s.ran ok n c op rest) key + op.byes key + s.byes.count key =
      s.owed key + (s.perform ok op).1.byes.count key +
        total (Op.byes key) (s.perform ok op).2 := by
  have hweigh : weigh (Op.byes key) (s.handlers.set n ⟨c, (s.perform ok op).2 ++ rest⟩) +
      op.byes key = weigh (Op.byes key) s.handlers + total (Op.byes key) (s.perform ok op).2 :=
    weigh_set hn _
  simp only [State.owed, State.withHandlers_handlers, State.withHandlers_byes]
  omega

theorem owed_mono (key : DialogKey) : s.owed key ≤ State.owed (s.ran ok n c op rest) key := by
  have hrun := owed_run hn ok key
  have hmove := (perform_byes s ok op key).1
  omega

theorem owed_of_ends {key : DialogKey} (hends : op.EndsWithBye s key) :
    1 ≤ State.owed (s.ran ok n c op rest) key := by
  have hrun := owed_run hn ok key
  have hone : 1 ≤ total (Op.byes key) (s.perform ok op).2 := total_byes_of_ends hends
  obtain ⟨_, top, rfl⟩ := hends
  have hzero : Op.byes key (.remove key true top) = 0 := rfl
  have hbyes : (s.perform ok (.remove key true top)).1.byes = s.byes := by
    simp only [perform]
    split <;> rfl
  rw [hzero, hbyes] at hrun
  omega

end

theorem Owed.run (h : Owed s) (hn : s.handlers[n]? = some ⟨c, op :: rest⟩) (ok : Bool) :
    Owed (s.ran ok n c op rest) := by
  constructor
  · intro key
    have hold := h.once key
    have hmove := perform_unbridges s ok op key
    have hweigh : weigh (unbridges key)
        (s.handlers.set n ⟨c, (s.perform ok op).2 ++ rest⟩) + op.unbridges key =
        weigh (unbridges key) s.handlers +
          total (unbridges key) (s.perform ok op).2 := weigh_set hn _
    simp only [State.withHandlers_handlers, State.withHandlers_torn]
    omega
  · intro key
    have hold := h.bye key
    have hrun := owed_run hn ok key
    have hmove := (perform_byes s ok op key).2
    simp only [State.withHandlers_torn]
    omega

end Run

theorem Owed.append (h : Owed s) (hbeside : Beside s s')
    (hhandlers : s'.handlers = s.handlers ++ [⟨c, [op]⟩])
    (hop : ∀ key, op.unbridges key = 0 ∧ op.byes key = 0) : Owed s' := by
  constructor
  · intro key
    rw [hhandlers, weigh_append, total_cons, (hop key).1, hbeside.torn]
    exact h.once key
  · intro key
    rw [State.owed, hhandlers, weigh_append, total_cons, (hop key).2, hbeside.torn,
      hbeside.byes]
    exact h.bye key

theorem Owed.idle (h : Owed s) (hbeside : Beside s s') (hhandlers : s'.handlers = s.handlers) :
    Owed s' := by
  constructor
  · intro key
    rw [hhandlers, hbeside.torn]
    exact h.once key
  · intro key
    rw [State.owed, hhandlers, hbeside.torn, hbeside.byes]
    exact h.bye key

theorem Owed.step (h : Owed s) (hstep : s.step a = some s') : Owed s' := by
  cases moves hstep with
  | run hn hop hs' =>
    subst hs'
    exact h.run hn _
  | @invite i hnew hbeside hhandlers =>
    obtain ⟨o, hops, ho⟩ := i.ops_eq
    rw [hops] at hhandlers
    refine h.append hbeside hhandlers fun key => ?_
    obtain rfl | rfl | rfl | ⟨room, leg, _, rfl⟩ := ho <;> exact ⟨rfl, rfl⟩
  | @request _ op hop hbeside hhandlers =>
    refine h.append hbeside hhandlers fun key => ?_
    cases op <;> first | contradiction | exact ⟨rfl, rfl⟩
  | idle hbeside hhandlers => exact h.idle hbeside hhandlers

theorem Owed.restore (guarded : Bool) (records : List DialogRecord) :
    Owed (State.restore guarded records) := by
  constructor <;> simp [State.restore, State.owed]

theorem Owed.torn (h : Owed s) (ho : Script.Pending s.handlers o)
    (hop : 0 < o.unbridges key) : key ∈ s.torn := by
  have hle := le_weigh (w := unbridges key) ho
  have honce := h.once key
  exact List.count_pos_iff.mp (by omega)

theorem Owed.unique (h : Owed s) (hlife : Life s) {o' : Op} (key : DialogKey)
    (ho : Script.Pending s.handlers o) (ho' : Script.Pending s.handlers o')
    (hop : 0 < o.unbridges key) (hop' : 0 < o'.unbridges key) : o = o' := by
  refine pending_unique ?_ ho ho' hop hop'
  have honce := h.once key
  have hlife := hlife.once key
  split at hlife <;> omega

/-! ## only a pair shares a bridge -/

/-- The operation has this bridge in hand, for this dialog. -/
def Op.claims (key : DialogKey) (bid : Nat) : Op → Bool
  | record k b _ | findPartner k _ b | findBridged k b _ _ => decide (k = key ∧ b = bid)
  | _ => false

/-- The operation bridges these two dialogs. -/
def Op.names (x y : DialogKey) : Op → Bool
  | readPartner k _ p | rebuild k p | record k _ p => decide (k = x ∧ p = y)
  | _ => false

/-- The dialog that an operation finds on the other side of a bridge. -/
def Op.finds (s : State) : Op → Option DialogKey
  | findPartner key _ bid =>
    (s.bridges.entries.find? fun e => e.2 = bid ∧ e.1 ≠ key).map Sigma.fst
  | _ => none

/-- The operation opens a bridge, this dialog on one side of it. -/
def Op.opens (key : DialogKey) : Op → Bool
  | bridgeWebrtc i => decide (i.key = key)
  | connect i _ p => decide (i.key = key) || decide (p.dialogKey = key)
  | rebuild k p => decide (k = key) || decide (p = key)
  | _ => false

def State.Claims (s : State) (key : DialogKey) (bid : Nat) : Prop :=
  s.bridges.lookup key = some bid ∨ ∃ o, Script.Pending s.handlers o ∧ o.claims key bid = true

structure Bids (s : State) : Prop where
  shared : ∀ x y bid, s.Claims x bid → s.Claims y bid → x = y ∨ s.Partner x y
  below : ∀ x bid, s.Claims x bid → bid < s.nextBridge
  sweeps : ∀ bid, Script.Pending s.handlers (.retainBridges bid) → bid < s.nextBridge
  named : ∀ o x y, Script.Pending s.handlers o → o.names x y = true → s.Partner x y

/-- An entry of the bridge table was there, or is the one recorded, or a WebRTC bridge. -/
theorem perform_bridges {s : State} (h : (s.perform ok op).1.bridges.lookup x = some bid) :
    s.bridges.lookup x = some bid ∨ (∃ p, op = .record x bid p) ∨
      bid = s.nextBridge ∧ ∃ i, op = .bridgeWebrtc i ∧ i.key = x := by
  cases op with
  | bridgeWebrtc i =>
    simp only [perform] at h
    by_cases hx : x = i.key
    · subst hx
      rw [AList.lookup_insert, Option.some.injEq] at h
      exact Or.inr (Or.inr ⟨h.symm, i, rfl, rfl⟩)
    · rw [AList.lookup_insert_ne hx] at h
      exact Or.inl h
  | record k b p =>
    simp only [perform] at h
    by_cases hx : x = k
    · subst hx
      rw [AList.lookup_insert, Option.some.injEq] at h
      exact Or.inr (Or.inl ⟨p, by rw [h]⟩)
    · rw [AList.lookup_insert_ne hx] at h
      exact Or.inl h
  | unrecord k => exact Or.inl (KeyMap.within_erase _ _ _ _ h)
  | unbridge k bye top =>
    left
    simp only [perform] at h
    split at h
    · exact KeyMap.within_erase _ _ _ _ h
    · exact h
  | retainBridges b => exact Or.inl (KeyMap.within_retain _ _ _ _ h)
  | _ =>
    left
    simp only [perform] at h
    (try split at h) <;> (try split at h) <;> exact h

theorem perform_claims {s : State}
    (ho : o ∈ (s.perform ok op).2) (hclaims : o.claims x bid = true) :
    s.bridges.lookup x = some bid ∨
      bid = s.nextBridge ∧ op.opens x = true ∧ s.nextBridge < (s.perform ok op).1.nextBridge := by
  cases op with
  | connect i room p =>
    right
    simp only [perform] at ho ⊢
    split at ho
    · split at ho
      · simp at ho
        obtain rfl | rfl | rfl := ho
        · simp_all [claims, Op.opens]
        · simp_all [claims, Op.opens]
        · contradiction
      · simp at ho
        obtain rfl | rfl | rfl := ho <;> contradiction
    · obtain rfl := List.mem_singleton.mp ho
      contradiction
  | rebuild k p =>
    right
    simp only [perform] at ho ⊢
    split at ho
    · simp at ho
      obtain rfl | rfl := ho <;> simp_all [claims, Op.opens]
    · simp at ho
      obtain rfl | rfl := ho <;> contradiction
  | mediaMoved k media =>
    left
    simp only [perform] at ho
    split at ho
    · next b hb =>
      obtain rfl := List.mem_singleton.mp ho
      obtain ⟨rfl, rfl⟩ : k = x ∧ b = bid := by simpa [claims] using hclaims
      exact hb
    · obtain rfl := List.mem_singleton.mp ho
      contradiction
  | unbridge k bye top =>
    left
    simp only [perform] at ho
    split at ho
    · next b hb =>
      obtain rfl := List.mem_singleton.mp ho
      obtain ⟨rfl, rfl⟩ : k = x ∧ b = bid := by simpa [claims] using hclaims
      exact hb
    · obtain rfl | ⟨_, rfl⟩ | ⟨_, p, _, rfl⟩ := mem_finishOps.mp ho <;> contradiction
  | _ =>
    simp only [perform] at ho
    (try split at ho) <;> (try split at ho) <;> simp at ho
    all_goals grind [claims]

/-- Two dialogs come to be bridged when they are paired, or when one finds the
other on its own bridge; then they go on to be. -/
theorem perform_names {s : State} (ho : o ∈ (s.perform ok op).2) (hnames : o.names x y = true) :
    op.names x y = true ∨ op.names y x = true ∨
      (∃ i room p, op = .connect i room p ∧ (p.dialogKey, i.key) ∈ (s.perform ok op).1.pairs ∧
        (x = p.dialogKey ∧ y = i.key ∨ x = i.key ∧ y = p.dialogKey)) ∨
      ∃ media bid, op = .findPartner x media bid ∧ op.finds s = some y ∧
        s.bridges.lookup y = some bid ∧ y ≠ x := by
  cases op with
  | connect i room p =>
    refine Or.inr (Or.inr (Or.inl ⟨i, room, p, rfl, ?_⟩))
    simp only [perform] at ho ⊢
    split at ho
    · split at ho
      · simp at ho
        obtain rfl | rfl | rfl := ho
        · simp_all [names]
        · simp_all [names]
        · contradiction
      · simp at ho
        obtain rfl | rfl | rfl := ho <;> contradiction
    · obtain rfl := List.mem_singleton.mp ho
      contradiction
  | findPartner k media bid =>
    refine Or.inr (Or.inr (Or.inr ?_))
    simp only [perform] at ho
    split at ho
    · next e he =>
      obtain rfl := List.mem_singleton.mp ho
      obtain ⟨rfl, rfl⟩ : k = x ∧ e.1 = y := by simpa [names] using hnames
      obtain ⟨hbid, hne⟩ : e.2 = bid ∧ e.1 ≠ k := by
        simpa using List.find?_some he
      refine ⟨media, bid, rfl, Option.map_eq_some_iff.mpr ⟨e, he, rfl⟩, ?_, hne⟩
      rw [← Option.mem_def, AList.mem_lookup_iff, ← hbid]
      exact List.mem_of_find?_eq_some he
    · contradiction
  | readPartner k media p =>
    left
    simp only [perform] at ho
    split at ho
    · obtain rfl := List.mem_singleton.mp ho
      exact hnames
    · contradiction
  | rebuild k p =>
    simp only [perform] at ho
    split at ho
    · simp at ho
      obtain rfl | rfl := ho
      · exact Or.inl hnames
      · right; left
        simpa [names, and_comm] using hnames
    · simp at ho
      obtain rfl | rfl := ho <;> contradiction
  | _ =>
    simp only [perform] at ho
    (try split at ho) <;> (try split at ho) <;> simp at ho
    all_goals grind [names]

theorem perform_mono (s : State) (ok : Bool) (op : Op) :
    (∀ q ∈ s.pairs, q ∈ (s.perform ok op).1.pairs) ∧
      s.nextBridge ≤ (s.perform ok op).1.nextBridge ∧
      ∀ bid, .retainBridges bid ∈ (s.perform ok op).2 → ∃ key bye top, op = .findBridged key bid bye top := by
  cases op with
  | findBridged k b bye top => simp +contextual [perform]
  | _ =>
    simp only [perform]
    (try split) <;> (try split) <;> simp +contextual

theorem State.Partner.run (h : s.Partner x y) (ok : Bool) (op : Op)
    (hs : List Handler) : ((s.perform ok op).1.withHandlers hs).Partner x y := by
  obtain ⟨hpairs, _⟩ := perform_mono s ok op
  exact h.imp (hpairs _) (hpairs _)

section

variable (h : Bids s)
include h

theorem Bids.opens
    (hop : Script.Pending s.handlers op) (hx : op.opens x = true) (hy : op.opens y = true)
    (hnext : s.nextBridge < (s.perform ok op).1.nextBridge) (hs : List Handler) :
    x = y ∨ ((s.perform ok op).1.withHandlers hs).Partner x y := by
  cases op with
  | bridgeWebrtc i =>
    left
    have hx : i.key = x := by simpa [Op.opens] using hx
    have hy : i.key = y := by simpa [Op.opens] using hy
    exact hx.symm.trans hy
  | connect i room p =>
    have hpair : (p.dialogKey, i.key) ∈ (s.perform ok (.connect i room p)).1.pairs := by
      simp only [perform] at hnext ⊢
      split at hnext
      · split at hnext
        · simp_all
        · simp at hnext
      · simp at hnext
    simp only [Op.opens, Bool.or_eq_true, decide_eq_true_eq] at hx hy
    obtain rfl | rfl := hx <;> obtain rfl | rfl := hy
    · exact Or.inl rfl
    · exact Or.inr (Or.inr hpair)
    · exact Or.inr (Or.inl hpair)
    · exact Or.inl rfl
  | rebuild k p =>
    have hpartner := h.named _ k p hop (by simp [names])
    simp only [Op.opens, Bool.or_eq_true, decide_eq_true_eq] at hx hy
    obtain rfl | rfl := hx <;> obtain rfl | rfl := hy
    · exact Or.inl rfl
    · exact Or.inr (hpartner.run ok _ hs)
    · exact Or.inr (hpartner.symm.run ok _ hs)
    · exact Or.inl rfl
  | _ => contradiction

theorem Bids.run (hn : s.handlers[n]? = some ⟨c, op :: rest⟩) (ok : Bool) :
    Bids (s.ran ok n c op rest) := by
  have hop := pending_head hn
  obtain ⟨_, hnext, hsweep⟩ := perform_mono s ok op
  -- a claim is an old one, or on the bridge that is just opened
  have hclaims : ∀ x bid, State.Claims (s.ran ok n c op rest) x bid →
      s.Claims x bid ∨ bid = s.nextBridge ∧ op.opens x = true ∧
        s.nextBridge < (s.perform ok op).1.nextBridge := by
    rintro x bid (hbridge | ⟨o, ho, hclaim⟩)
    · obtain hold | ⟨p, rfl⟩ | ⟨hbid, i, rfl, hkey⟩ := perform_bridges hbridge
      · exact Or.inl (Or.inl hold)
      · exact Or.inl (Or.inr ⟨_, hop, by simp [claims]⟩)
      · exact Or.inr ⟨hbid, by simp [Op.opens, hkey], Nat.lt_succ_self _⟩
    · obtain ho | ho := pending_set hn ho
      · exact Or.inl (Or.inr ⟨o, ho, hclaim⟩)
      · exact (perform_claims ho hclaim).imp_left Or.inl
  constructor
  · intro x y bid hx hy
    obtain hx | ⟨rfl, hx, hlt⟩ := hclaims x bid hx
    · obtain hy | ⟨rfl, _, _⟩ := hclaims y bid hy
      · exact (h.shared x y bid hx hy).imp_right fun hpartner => hpartner.run ok op _
      · exact absurd (h.below x _ hx) (Nat.lt_irrefl _)
    · obtain hy | ⟨_, hy, _⟩ := hclaims y _ hy
      · exact absurd (h.below y _ hy) (Nat.lt_irrefl _)
      · exact h.opens hop hx hy hlt _
  · intro x bid hx
    simp only [State.withHandlers_nextBridge]
    obtain hx | ⟨rfl, _, hlt⟩ := hclaims x bid hx
    · exact Nat.lt_of_lt_of_le (h.below x bid hx) hnext
    · exact hlt
  · intro bid ho
    simp only [State.withHandlers_nextBridge]
    refine Nat.lt_of_lt_of_le ?_ hnext
    obtain ho | ho := pending_set hn ho
    · exact h.sweeps bid ho
    · obtain ⟨key, bye, top, rfl⟩ := hsweep bid ho
      exact h.below key bid (Or.inr ⟨_, hop, by simp [claims]⟩)
  · intro o x y ho hnames
    obtain ho | ho := pending_set hn ho
    · exact (h.named o x y ho hnames).run ok op _
    · obtain hold | hold | ⟨i, room, p, rfl, hpair, hxy⟩ | ⟨media, bid, rfl, _, hbid, hne⟩ :=
        perform_names ho hnames
      · exact (h.named op x y hop hold).run ok op _
      · exact (h.named op y x hop hold).symm.run ok op _
      · obtain ⟨rfl, rfl⟩ | ⟨rfl, rfl⟩ := hxy
        · exact Or.inl hpair
        · exact Or.inr hpair
      · have hclaim : s.Claims x bid := Or.inr ⟨_, hop, by simp [claims]⟩
        obtain rfl | hpartner := h.shared x y bid hclaim (Or.inl hbid)
        · exact absurd rfl hne
        · exact hpartner.run ok _ _

theorem Bids.append (hbeside : Beside s s') (hhandlers : s'.handlers = s.handlers ++ [⟨c, [op]⟩])
    (hop : (∀ x bid, op.claims x bid = false) ∧ (∀ x y, op.names x y = false) ∧
      ∀ bid, op ≠ .retainBridges bid) : Bids s' := by
  have hpending : ∀ o, Script.Pending s'.handlers o → Script.Pending s.handlers o ∨ o = op := by
    intro o ho
    rwa [hhandlers, pending_append, List.mem_singleton] at ho
  have hclaims : ∀ x bid, s'.Claims x bid → s.Claims x bid := by
    rintro x bid (hbridge | ⟨o, ho, hclaim⟩)
    · exact Or.inl (hbeside.bridges ▸ hbridge)
    · obtain ho | rfl := hpending o ho
      · exact Or.inr ⟨o, ho, hclaim⟩
      · rw [hop.1 x bid] at hclaim
        contradiction
  constructor
  · intro x y bid hx hy
    rw [State.Partner, hbeside.pairs]
    exact h.shared x y bid (hclaims x bid hx) (hclaims y bid hy)
  · intro x bid hx
    rw [hbeside.nextBridge]
    exact h.below x bid (hclaims x bid hx)
  · intro bid ho
    rw [hbeside.nextBridge]
    obtain ho | ho := hpending _ ho
    · exact h.sweeps bid ho
    · exact absurd ho.symm (hop.2.2 bid)
  · intro o x y ho hnames
    rw [State.Partner, hbeside.pairs]
    obtain ho | rfl := hpending o ho
    · exact h.named o x y ho hnames
    · rw [hop.2.1 x y] at hnames
      contradiction

theorem Bids.idle (hbeside : Beside s s') (hhandlers : s'.handlers = s.handlers) : Bids s' := by
  have hclaims : ∀ x bid, s'.Claims x bid → s.Claims x bid := by
    intro x bid hx
    rwa [State.Claims, hhandlers, hbeside.bridges] at hx
  constructor
  · intro x y bid hx hy
    rw [State.Partner, hbeside.pairs]
    exact h.shared x y bid (hclaims x bid hx) (hclaims y bid hy)
  · intro x bid hx
    rw [hbeside.nextBridge]
    exact h.below x bid (hclaims x bid hx)
  · rw [hhandlers, hbeside.nextBridge]
    exact h.sweeps
  · simp only [State.Partner, hhandlers, hbeside.pairs]
    exact h.named

theorem Bids.step (hstep : s.step a = some s') : Bids s' := by
  cases moves hstep with
  | run hn hop hs' =>
    subst hs'
    exact h.run hn _
  | @invite i hnew hbeside hhandlers =>
    obtain ⟨o, hops, ho⟩ := i.ops_eq
    rw [hops] at hhandlers
    refine h.append hbeside hhandlers ?_
    obtain rfl | rfl | rfl | ⟨room, leg, _, rfl⟩ := ho <;> simp [claims, names]
  | @request _ op hop hbeside hhandlers =>
    refine h.append hbeside hhandlers ?_
    cases op <;> first | contradiction | simp [claims, names]
  | idle hbeside hhandlers => exact h.idle hbeside hhandlers

end

theorem Bids.restore (guarded : Bool) (records : List DialogRecord) :
    Bids (State.restore guarded records) := by
  constructor <;> simp [State.restore, State.Claims, Script.Pending]

/-! ## all of it -/

/-- What every run keeps. -/
structure Ground (s : State) : Prop where
  life : Life s
  met : Met s
  owed : Owed s
  bids : Bids s

theorem Ground.step (h : Ground s) (hstep : s.step a = some s') : Ground s' where
  life := h.life.step hstep
  met := h.met.step (h.life.step hstep) hstep
  owed := h.owed.step hstep
  bids := h.bids.step hstep

theorem Ground.restore (guarded : Bool) (records : List DialogRecord) :
    Ground (State.restore guarded records) where
  life := Life.restore guarded records
  met := Met.restore guarded records
  owed := Owed.restore guarded records
  bids := Bids.restore guarded records

end SmithsNet.Uas.Calls
