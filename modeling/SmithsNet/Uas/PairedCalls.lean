import SmithsNet.Uas.Pairs

/-!
# SmithsNet.Uas.PairedCalls

Two calls that were paired end together: when one dialog is torn down, its
bridge leads to the other one, which is torn down too and sent a BYE.

`paired_end_together`: in a run in which pairs are bridged plainly, no bridge
is lost when media moves, and no dialog is torn down in the middle of being
bridged, of any two paired dialogs either none or both have been torn down
whenever no handler is at work, and the second one has been sent exactly one BYE.
`transcoded_call_survives`: a transcoded pair has no bridge to lead from one
call to the other.
-/

namespace SmithsNet.Uas.Calls

open Lib SmithsNet.Core Attach State Script

/-- Of two paired dialogs of which one has been torn down, the other has been
torn down after it, and its peer has been sent exactly one BYE. -/
def EndTogether (s : State) : Prop :=
  ∀ x y, s.Partner x y → x ∈ s.torn →
    [x, y].Sublist s.torn ∧ s.byes.count y = 1 ∨ [y, x].Sublist s.torn ∧ s.byes.count x = 1

/-! ## when they do -/

/-- The operation looks after the bridge of this dialog, or will. -/
def Op.bridging (key : DialogKey) : Op → Bool
  | compareMedia k _ | mediaMoved k _ | findPartner k _ _ => decide (k = key)
  | readPartner k _ p | rebuild k p | record k _ p => decide (k = key) || decide (p = key)
  | _ => false

/-- The operation records a bridge of this dialog. -/
def Op.records (key : DialogKey) : Op → Bool
  | record k _ _ => decide (k = key)
  | _ => false

def Op.connects : Op → Option (Invite × PendingLeg)
  | connect i _ p => some (i, p)
  | _ => none

def Op.rebuilds : Op → Option (DialogKey × DialogKey)
  | rebuild k p => some (k, p)
  | _ => none

/-- The dialog that is torn down, and whether it is sent a BYE. -/
def Op.ends : Op → Option (DialogKey × Bool)
  | remove key bye _ => some (key, bye)
  | _ => none

attribute [local instance] lawfulBEq_dialogKey

/-- One of two partners may be torn down: as the second, if it is sent a BYE; as
the first, while the other is in the table and no handler looks after its bridge. -/
def State.MayEnd (s : State) (x y : DialogKey) (bye : Bool) : Prop :=
  if y ∈ s.torn then bye = true
  else y ∈ s.dialogs ∧ ∀ h ∈ s.handlers, ∀ o ∈ h.ops, o.bridging x = false

instance (s : State) (x y : DialogKey) (bye : Bool) : Decidable (s.MayEnd x y bye) :=
  inferInstanceAs (Decidable (if y ∈ s.torn then bye = true
    else y ∈ s.dialogs ∧ ∀ h ∈ s.handlers, ∀ o ∈ h.ops, o.bridging x = false))

/-- The operation keeps pairs together: it pairs plainly and with a dialog that
is there, it finds a partner that is there, it bridges two partners anew one at
a time and with success, and it tears down only what may be. -/
structure Op.Keeps (s : State) (ok : Bool) (op : Op) : Prop where
  plain : ∀ q ∈ op.connects, ok = true →
    mismatch q.2.audioCodec q.1.codec = none ∧ s.Alive q.2.dialogKey
  found : ∀ key ∈ op.finds s, s.Alive key
  rebuilt : ∀ q ∈ op.rebuilds, ok = true ∧
    ∀ h ∈ s.handlers, ∀ o ∈ h.ops, o.records q.1 = false ∧ o.records q.2 = false
  ended : ∀ r ∈ op.ends, r.1 ∈ s.dialogs → ∀ q ∈ s.pairs,
    (q.1 = r.1 → s.MayEnd r.1 q.2 r.2) ∧ (q.2 = r.1 → s.MayEnd r.1 q.1 r.2)

open Op

instance (s : State) (ok : Bool) (op : Op) : Decidable (op.Keeps s ok) :=
  decidable_of_iff
    ((∀ q ∈ op.connects, ok = true →
        mismatch q.2.audioCodec q.1.codec = none ∧ s.Alive q.2.dialogKey) ∧
      (∀ key ∈ op.finds s, s.Alive key) ∧
      (∀ q ∈ op.rebuilds, ok = true ∧
        ∀ h ∈ s.handlers, ∀ o ∈ h.ops, o.records q.1 = false ∧ o.records q.2 = false) ∧
      ∀ r ∈ op.ends, r.1 ∈ s.dialogs → ∀ q ∈ s.pairs,
        (q.1 = r.1 → s.MayEnd r.1 q.2 r.2) ∧ (q.2 = r.1 → s.MayEnd r.1 q.1 r.2))
    ⟨fun ⟨h₁, h₂, h₃, h₄⟩ => ⟨h₁, h₂, h₃, h₄⟩, fun ⟨h₁, h₂, h₃, h₄⟩ => ⟨h₁, h₂, h₃, h₄⟩⟩

/-- Every operation carried out keeps pairs together. -/
def KeepsPairs (s : State) (a : Action) : Prop := ∀ o ∈ s.opOf a, o.1.Keeps s o.2

instance (s : State) (a : Action) : Decidable (KeepsPairs s a) :=
  inferInstanceAs (Decidable (∀ _ ∈ _, _))

variable {top ok bye : Bool} {x y : DialogKey} {bid : Nat} {op : Op} {c : String}

theorem Op.Keeps.mayEnd {s : State}
    (h : Op.Keeps s ok (.remove x bye top)) (hmem : x ∈ s.dialogs) (hpartner : s.Partner x y) :
    s.MayEnd x y bye := by
  obtain hpair | hpair := hpartner
  · exact (h.ended (x, bye) rfl hmem _ hpair).1 rfl
  · exact (h.ended (x, bye) rfl hmem _ hpair).2 rfl

/-! ## the invariant -/

/-- Once what is pending is done, the bridge of this dialog is this one. -/
structure Will (s : State) (key : DialogKey) (bid : Nat) : Prop where
  pending : ∀ b p, Script.Pending s.handlers (.record key b p) → b = bid
  bridged : (∃ p, Script.Pending s.handlers (.record key bid p)) ∨ s.bridges.lookup key = some bid

/-- The teardown of `x` is on its way to `y`. -/
inductive Falling (s : State) (x y : DialogKey) : Prop
  | unbridging {bid : Nat} {bye : Bool} (h : Script.Pending s.handlers (.unbridge x bye true))
      (hx : s.bridges.lookup x = some bid) (hy : s.bridges.lookup y = some bid)
  | finding {bid : Nat} {bye : Bool} (h : Script.Pending s.handlers (.findBridged x bid bye true))
      (hy : s.bridges.lookup y = some bid)
  | removing (h : Script.Pending s.handlers (.remove y true false))

structure Links (s : State) : Prop where
  unlinked : ∀ key, ¬ Script.Pending s.handlers (.unrecord key)
  /-- Two dialogs that are being bridged have not been torn down. -/
  live : ∀ o x y, Script.Pending s.handlers o → o.names x y = true → x ∉ s.torn ∧ y ∉ s.torn
  /-- No handler looks after the bridge of a dialog whose teardown is under way. -/
  settled : ∀ o x y, Script.Pending s.handlers o → o.bridging x = true → s.Partner x y →
    x ∈ s.torn → y ∈ s.torn
  bound : ∀ x y, s.Partner x y → x ∉ s.torn → y ∉ s.torn → ∃ bid, Will s x bid ∧ Will s y bid
  falling : ∀ x y, s.Partner x y → x ∈ s.torn → y ∉ s.torn → y ∈ s.dialogs ∧ Falling s x y
  /-- A bridge is swept only when both its dialogs are torn down, or about to be. -/
  swept : ∀ x bid, Script.Pending s.handlers (.retainBridges bid) →
    s.bridges.lookup x = some bid ∨ (∃ p, Script.Pending s.handlers (.record x bid p)) →
    x ∈ s.torn ∨ Script.Pending s.handlers (.remove x true false)
  /-- A partner is torn down for a dialog that has been. -/
  dropped : ∀ y bye, Script.Pending s.handlers (.remove y bye false) → ∃ x, s.Partner x y ∧ x ∈ s.torn
  erased : ∀ x bid bye top, Script.Pending s.handlers (.findBridged x bid bye top) → x ∉ s.bridges

/-! ## one operation -/

variable {s s' : State}

theorem perform_torn (s : State) (ok : Bool) (op : Op) : (s.perform ok op).1.torn = s.torn ∨
      ∃ k bye top d, op = .remove k bye top ∧ s.dialogs.lookup k = some d ∧
        s.perform ok op = ({ s with dialogs := s.dialogs.erase k, torn := s.torn ++ [k] },
          teardownOps k d bye top) := by
  cases op with
  | remove k bye top =>
    simp only [perform]
    split
    · next d hd => exact Or.inr ⟨k, bye, top, d, rfl, hd, rfl⟩
    · exact Or.inl rfl
  | _ =>
    left
    simp only [perform] <;> (try split) <;> (try split) <;> rfl

theorem perform_pairs (s : State) (ok : Bool) (op : Op) : (s.perform ok op).1.pairs = s.pairs ∨
      ∃ i room p, op = .connect i room p ∧ ok = true ∧
        (s.perform ok op).1.pairs = s.pairs ++ [(p.dialogKey, i.key)] := by
  cases op with
  | connect i room p =>
    cases ok with
    | false => exact Or.inl rfl
    | true =>
      refine Or.inr ⟨i, room, p, rfl, rfl, ?_⟩
      simp only [perform, if_true]
      split <;> rfl
  | _ =>
    left
    simp only [perform] <;> (try split) <;> (try split) <;> rfl

/-- A bridge stays with its dialog, unless it is written over or cleared. -/
theorem perform_bridged {s : State} (ok : Bool) (op : Op) (h : s.bridges.lookup x = some bid) :
    (s.perform ok op).1.bridges.lookup x = some bid ∨ op.records x = true ∨
      (∃ i, op = .bridgeWebrtc i ∧ i.key = x) ∨ op = .unrecord x ∨ 0 < op.unbridges x ∨
      op = .retainBridges bid := by
  cases op with
  | bridgeWebrtc i =>
    by_cases hx : x = i.key
    · exact Or.inr (Or.inr (Or.inl ⟨i, rfl, hx.symm⟩))
    · exact Or.inl ((AList.lookup_insert_ne hx).trans h)
  | record k b p =>
    by_cases hx : x = k
    · exact Or.inr (Or.inl (by simp [Op.records, hx]))
    · exact Or.inl ((AList.lookup_insert_ne hx).trans h)
  | unrecord k =>
    by_cases hx : x = k
    · exact Or.inr (Or.inr (Or.inr (Or.inl (by rw [hx]))))
    · exact Or.inl ((AList.lookup_erase_ne hx).trans h)
  | unbridge k bye top =>
    by_cases hx : x = k
    · exact Or.inr (Or.inr (Or.inr (Or.inr (Or.inl (by simp [unbridges, hx])))))
    · left
      simp only [perform]
      split
      · exact (AList.lookup_erase_ne hx).trans h
      · exact h
  | retainBridges b =>
    by_cases hb : b = bid
    · simp [hb]
    · left
      simp only [perform]
      rw [← Option.mem_def, AList.mem_lookup_iff] at h ⊢
      exact List.mem_filter.mpr ⟨h, by simpa using Ne.symm hb⟩
  | _ =>
    left
    simp only [perform]
    (try split) <;> (try split) <;> exact h

/-- A bridge is recorded for two dialogs that are paired, or bridged anew. -/
theorem perform_recordNew {p : DialogKey} {b : Nat} (ho : .record x b p ∈ (s.perform ok op).2) :
    b = s.nextBridge ∧
      ((∃ i room q, op = .connect i room q ∧ ok = true ∧
          (x = q.dialogKey ∧ p = i.key ∨ x = i.key ∧ p = q.dialogKey)) ∨
        ∃ k q, op = .rebuild k q ∧ (x = k ∧ p = q ∨ x = q ∧ p = k)) := by
  cases op with
  | connect i room q =>
    simp only [perform] at ho
    split at ho
    · split at ho
      · simp at ho
        grind
      · simp at ho
    · simp at ho
  | rebuild k q =>
    simp only [perform] at ho
    split at ho
    · simp at ho
      grind
    · simp at ho
  | _ =>
    simp only [perform] at ho
    (try split at ho) <;> (try split at ho) <;> simp at ho

theorem perform_unrecordNew {key : DialogKey}
    (ho : .unrecord key ∈ (s.perform ok op).2) : (∃ k p, op = .rebuild k p) ∧ ok = false := by
  cases op with
  | rebuild k p =>
    simp only [perform] at ho
    split at ho
    · simp at ho
    · next hok => exact ⟨⟨k, p, rfl⟩, by simpa using hok⟩
  | _ =>
    simp only [perform] at ho
    (try split at ho) <;> (try split at ho) <;> simp at ho

theorem perform_removeNew (ho : .remove y bye false ∈ (s.perform ok op).2) :
    bye = true ∧ ∃ x bid b, op = .findBridged x bid b true ∧ s.bridges.lookup y = some bid := by
  cases op with
  | findBridged x bid b top =>
    simp only [perform, List.mem_append, List.mem_singleton, mem_finishOps,
      Option.map_eq_some_iff] at ho
    obtain ho | ho | ⟨_, ho⟩ | ⟨htop, p, ⟨e, he, rfl⟩, ho⟩ := ho <;> first | contradiction | skip
    obtain ⟨rfl, rfl, _⟩ := Op.remove.inj ho
    refine ⟨rfl, x, bid, b, by rw [htop], ?_⟩
    obtain hbid : e.2 = bid := by simpa using List.find?_some he
    rw [← Option.mem_def, AList.mem_lookup_iff, ← hbid]
    exact List.mem_of_find?_eq_some he
  | _ =>
    simp only [perform] at ho
    (try split at ho) <;> (try split at ho) <;> simp at ho

theorem perform_findNew (ho : .findBridged x bid bye top ∈ (s.perform ok op).2) :
    op = .unbridge x bye top ∧ x ∉ (s.perform ok op).1.bridges := by
  cases op with
  | unbridge k b t =>
    simp only [perform] at ho ⊢
    split at ho
    · next hk => simp_all
    · simp at ho
  | _ =>
    simp only [perform] at ho
    (try split at ho) <;> (try split at ho) <;> simp at ho

theorem perform_bridging {o : Op} (ho : o ∈ (s.perform ok op).2) (hx : o.bridging x = true) :
    op.bridging x = true ∨ x ∈ s.dialogs ∨ op.finds s = some x ∨
      ∃ i room q, op = .connect i room q ∧ ok = true ∧ (x = q.dialogKey ∨ x = i.key) := by
  cases op with
  | lookUp k r =>
    simp only [perform] at ho
    split at ho
    · next hmem =>
      obtain ⟨m, _, rfl⟩ | ⟨_, rfl⟩ | ⟨_, rfl⟩ | ⟨_, rfl⟩ := Refresh.mem_ops.mp ho <;>
        simp_all [bridging]
    · contradiction
  | findPartner k media bid =>
    simp only [perform] at ho
    split at ho
    · next e he =>
      obtain rfl := List.mem_singleton.mp ho
      simp only [bridging, Bool.or_eq_true, decide_eq_true_eq] at hx ⊢
      obtain hx | hx := hx
      · exact Or.inl hx
      · exact Or.inr (Or.inr (Or.inl (Option.map_eq_some_iff.mpr ⟨e, he, hx⟩)))
    · contradiction
  | connect i room q =>
    refine Or.inr (Or.inr (Or.inr ⟨i, room, q, rfl, ?_⟩))
    simp only [perform] at ho
    split at ho
    · split at ho
      · simp at ho
        obtain rfl | rfl | rfl := ho <;> simp_all [bridging] <;> grind
      · simp at ho
        obtain rfl | rfl | rfl := ho <;> contradiction
    · obtain rfl := List.mem_singleton.mp ho
      contradiction
  | _ =>
    left
    simp only [perform] at ho
    (try split at ho) <;> (try split at ho) <;> simp at ho
    all_goals grind [bridging]

/-! ## a handler carries out its next operation -/

section Run

variable {n : Nat} {c : String} {op : Op} {rest : List Op} {ok : Bool} {x y : DialogKey}

theorem torn_ran (hx : x ∈ (s.ran ok n c op rest).torn) :
    x ∈ s.torn ∨ ∃ bye top, op = .remove x bye top ∧ x ∈ s.dialogs := by
  obtain hsame | ⟨k, bye, top, d, rfl, hd, hperform⟩ := perform_torn s ok op
  · left
    rwa [withHandlers_torn, hsame] at hx
  · rw [withHandlers_torn, hperform, List.mem_append, List.mem_singleton] at hx
    obtain hx | rfl := hx
    · exact Or.inl hx
    · exact Or.inr ⟨bye, top, rfl, AList.lookup_isSome.mp (by rw [hd]; rfl)⟩

theorem torn_mono (hx : x ∈ s.torn) : x ∈ (s.ran ok n c op rest).torn := by
  obtain hsame | ⟨k, bye, top, d, rfl, hd, hperform⟩ := perform_torn s ok op
  · rwa [withHandlers_torn, hsame]
  · rw [withHandlers_torn, hperform]
    exact List.mem_append_left _ hx

variable {bye top : Bool} {bid : Nat} {o : Op}

theorem torn_of_remove (hx : x ∈ s.dialogs) : x ∈ (s.ran ok n c (.remove x bye top) rest).torn := by
  obtain ⟨d, hd⟩ := Option.isSome_iff_exists.mp (AList.lookup_isSome.mpr hx)
  simp [perform, hd]

theorem partner_ran (h : (s.ran ok n c op rest).Partner x y) :
    s.Partner x y ∨ ∃ i room p, op = .connect i room p ∧ ok = true ∧
      (x = p.dialogKey ∧ y = i.key ∨ x = i.key ∧ y = p.dialogKey) := by
  obtain hsame | ⟨i, room, p, rfl, hok, hpairs⟩ := perform_pairs s ok op
  · left
    rwa [State.Partner, State.withHandlers_pairs, hsame] at h
  · rw [State.Partner, State.withHandlers_pairs, hpairs] at h
    simp only [List.mem_append, List.mem_singleton, Prod.mk.injEq] at h
    obtain (h | h) | (h | h) := h
    · exact Or.inl (Or.inl h)
    · exact Or.inr ⟨i, room, p, rfl, hok, Or.inl h⟩
    · exact Or.inl (Or.inr h)
    · exact Or.inr ⟨i, room, p, rfl, hok, Or.inr h.symm⟩

theorem connect_not_torn (hg : Ground s) {i : Invite} {room : String} {p : PendingLeg}
    (hn : s.handlers[n]? = some ⟨c, .connect i room p :: rest⟩)
    (hkeeps : Op.Keeps s true (.connect i room p)) :
    p.dialogKey ∉ (s.ran true n c (.connect i room p) rest).torn ∧
      i.key ∉ (s.ran true n c (.connect i room p) rest).torn := by
  have halive := (hkeeps.plain (i, p) rfl rfl).2
  have hfresh : i.key ∉ s.torn :=
    (hg.life.fresh (pending_head hn) (by simp [Op.brings])).2
  refine ⟨fun hx => ?_, fun hx => ?_⟩
  · obtain hx | ⟨_, _, ho, _⟩ := torn_ran hx
    · exact halive.not_torn hg.life hx
    · contradiction
  · obtain hx | ⟨_, _, ho, _⟩ := torn_ran hx
    · exact hfresh hx
    · contradiction

theorem Op.bridging_of_names (h : o.names x y = true) :
    o.bridging x = true ∧ o.bridging y = true := by
  cases o <;> simp_all [names, bridging]

theorem teardownOps_bridging {d : Dialog}
    (ho : o ∈ teardownOps x d bye top) : o.bridging y = false := by
  obtain rfl | rfl | rfl | rfl | ⟨room, _, rfl⟩ | rfl := mem_teardownOps.mp ho <;> rfl

section

variable (h : Links s) (hg : Ground s) (hn : s.handlers[n]? = some ⟨c, op :: rest⟩)
include h hg hn

theorem Links.live_ran
    (hkeeps : op.Keeps s ok) (ho : Script.Pending (s.ran ok n c op rest).handlers o)
    (hnames : o.names x y = true) :
    x ∉ (s.ran ok n c op rest).torn ∧ y ∉ (s.ran ok n c op rest).torn := by
  have hop := pending_head hn
  obtain hold | hnew := pending_set hn ho
  · -- what is being bridged is not torn down: the condition
    have hkept : ∀ z w, s.Partner z w → w ∉ s.torn → z ∉ s.torn → o.bridging z = true →
        z ∉ (s.ran ok n c op rest).torn := by
      intro z w hpartner hw hz hbridging hgone
      obtain hgone | ⟨bye, top, rfl, hmem⟩ := torn_ran hgone
      · exact hz hgone
      · have hmay := hkeeps.mayEnd hmem hpartner
        rw [State.MayEnd, if_neg hw] at hmay
        obtain ⟨g, hg, ho⟩ := hold
        rw [hmay.2 g hg o ho] at hbridging
        contradiction
    obtain ⟨hx, hy⟩ := h.live o x y hold hnames
    have hpartner := hg.bids.named o x y hold hnames
    obtain ⟨hbx, hby⟩ := Op.bridging_of_names hnames
    exact ⟨hkept x y hpartner hy hx hbx, hkept y x hpartner.symm hx hy hby⟩
  · obtain hsame | ⟨k, bye, top, d, rfl, hd, hperform⟩ := perform_torn s ok op
    · rw [withHandlers_torn, hsame]
      obtain hold | hold | ⟨i, room, p, rfl, hpair, hxy⟩ | ⟨media, bid, rfl, hfinds, hbid, hne⟩ :=
        perform_names hnew hnames
      · exact h.live op x y hop hold
      · exact (h.live op y x hop hold).symm
      · have hok : ok = true := by
          by_contra hok
          simp only [perform, hok] at hnew
          obtain rfl := List.mem_singleton.mp hnew
          contradiction
        subst hok
        obtain ⟨hp, hi⟩ := connect_not_torn hg hn hkeeps
        rw [withHandlers_torn, hsame] at hp hi
        obtain ⟨rfl, rfl⟩ | ⟨rfl, rfl⟩ := hxy
        · exact ⟨hp, hi⟩
        · exact ⟨hi, hp⟩
      · have hy := (hkeeps.found y hfinds).not_torn hg.life
        refine ⟨fun hx => hy ?_, hy⟩
        have hclaim : s.Claims x bid := Or.inr ⟨_, hop, by simp [claims]⟩
        obtain rfl | hpartner := hg.bids.shared x y bid hclaim (Or.inl hbid)
        · exact absurd rfl hne
        · exact h.settled _ x y hop (by simp [bridging]) hpartner hx
    · rw [hperform] at hnew
      have hbridging := (Op.bridging_of_names hnames).1
      rw [teardownOps_bridging hnew] at hbridging
      contradiction

theorem Links.settled_ran
    (hkeeps : op.Keeps s ok) (ho : Script.Pending (s.ran ok n c op rest).handlers o)
    (hbridging : o.bridging x = true) (hpaired : (s.ran ok n c op rest).Partner x y)
    (hx : x ∈ (s.ran ok n c op rest).torn) : y ∈ (s.ran ok n c op rest).torn := by
  have hop := pending_head hn
  obtain hpartner | ⟨i, room, p, rfl, rfl, hxy⟩ := partner_ran hpaired
  · obtain hgone | ⟨bye, top, rfl, hmem⟩ := torn_ran hx
    · obtain hold | hnew := pending_set hn ho
      · exact torn_mono (h.settled o x y hold hbridging hpartner hgone)
      · obtain hold | hmem | hfinds | ⟨i, room, q, rfl, rfl, hq⟩ := perform_bridging hnew hbridging
        · exact torn_mono (h.settled op x y hop hold hpartner hgone)
        · exact absurd hmem (hg.life.gone hgone)
        · exact absurd hgone ((hkeeps.found x hfinds).not_torn hg.life)
        · obtain ⟨hp, hi⟩ := connect_not_torn hg hn hkeeps
          obtain rfl | rfl := hq
          · exact absurd hx hp
          · exact absurd hx hi
    · have hmay := hkeeps.mayEnd hmem hpartner
      unfold State.MayEnd at hmay
      split at hmay
      · next hy => exact torn_mono hy
      · obtain ⟨g, hg, ho⟩ | hnew := pending_set hn ho
        · rw [hmay.2 g hg o ho] at hbridging
          contradiction
        · obtain ⟨d, hd⟩ := Option.isSome_iff_exists.mp (AList.lookup_isSome.mpr hmem)
          simp only [perform, hd] at hnew
          rw [teardownOps_bridging hnew] at hbridging
          contradiction
  · obtain ⟨hp, hi⟩ := connect_not_torn hg hn hkeeps
    obtain ⟨rfl, rfl⟩ | ⟨rfl, rfl⟩ := hxy
    · exact absurd hx hp
    · exact absurd hx hi

theorem Links.dropped_ran
    (ho : Script.Pending (s.ran ok n c op rest).handlers (.remove y bye false)) :
    ∃ x, (s.ran ok n c op rest).Partner x y ∧ x ∈ (s.ran ok n c op rest).torn := by
  have hop := pending_head hn
  obtain hold | hnew := pending_set hn ho
  · obtain ⟨x, hpartner, hx⟩ := h.dropped y bye hold
    exact ⟨x, hpartner.run ok op _, torn_mono hx⟩
  · obtain ⟨_, x, bid, b, rfl, hbid⟩ := perform_removeNew hnew
    have hx : x ∈ s.torn := hg.owed.torn hop (by simp [unbridges])
    have hclaim : s.Claims x bid := Or.inr ⟨_, hop, by simp [claims]⟩
    obtain rfl | hpartner := hg.bids.shared x y bid hclaim (Or.inl hbid)
    · exact absurd (AList.lookup_isSome.mp (by rw [hbid]; rfl)) (h.erased x bid b true hop)
    · exact ⟨x, hpartner.run ok _ _, torn_mono hx⟩

theorem Links.erased_ran
    (ho : Script.Pending (s.ran ok n c op rest).handlers (.findBridged x bid bye top)) :
    x ∉ (s.ran ok n c op rest).bridges := by
  have hop := pending_head hn
  obtain hold | hnew := pending_set hn ho
  · have hx : x ∈ s.torn := hg.owed.torn hold (by simp [unbridges])
    intro hmem
    obtain ⟨b, hb⟩ := Option.isSome_iff_exists.mp (AList.lookup_isSome.mpr hmem)
    obtain hb | ⟨p, rfl⟩ | ⟨_, i, rfl, rfl⟩ := perform_bridges hb
    · exact h.erased x bid bye top hold (AList.lookup_isSome.mp (by rw [hb]; rfl))
    · exact (h.live _ x p hop (by simp [names])).1 hx
    · exact (hg.life.fresh hop (by simp [Op.brings])).2 hx
  · exact (perform_findNew hnew).2

/-- The bridge of a paired dialog that has not been torn down is not cleared. -/
theorem Links.bridged_ran
    (ok : Bool) (hpartner : s.Partner x y) (hx : x ∉ s.torn) (hbid : s.bridges.lookup x = some bid) :
    (s.ran ok n c op rest).bridges.lookup x = some bid ∨ op.records x = true ∨
      op = .retainBridges bid ∧ Script.Pending s.handlers (.remove x true false) := by
  have hop := pending_head hn
  obtain hsame | hrecords | ⟨i, rfl, rfl⟩ | rfl | hunbridges | rfl := perform_bridged ok op hbid
  · exact Or.inl hsame
  · exact Or.inr (Or.inl hrecords)
  · exact absurd hpartner (hg.met.unpaired hop (by simp [meets]))
  · exact absurd hop (h.unlinked x)
  · exact absurd (hg.owed.torn hop hunbridges) hx
  · obtain hgone | hremove := h.swept x bid hop (Or.inl hbid)
    · exact absurd hgone hx
    · exact Or.inr (Or.inr ⟨rfl, hremove⟩)

/-- A dialog stays bound to a bridge, unless the bridge is built anew. -/
theorem Links.will_ran
    (hpartner : s.Partner x y) (hx : x ∉ s.torn) (hy : y ∉ s.torn) (hwill : Will s x bid)
    (hrebuild : ∀ k q, op = .rebuild k q → x ≠ k ∧ x ≠ q) : Will (s.ran ok n c op rest) x bid := by
  have hop := pending_head hn
  constructor
  · intro b p ho
    obtain hold | hnew := pending_set hn ho
    · exact hwill.pending b p hold
    · obtain ⟨_, ⟨i, room, q, rfl, _, hq⟩ | ⟨k, q, rfl, hq⟩⟩ := perform_recordNew hnew
      · have hmeets : 0 < meets x (.connect i room q) := by
          obtain ⟨rfl, _⟩ | ⟨rfl, _⟩ := hq
          all_goals
            simp only [meets, if_true]
            omega
        exact absurd hpartner (hg.met.unpaired hop hmeets)
      · obtain ⟨hk, hq'⟩ := hrebuild k q rfl
        obtain ⟨rfl, _⟩ | ⟨rfl, _⟩ := hq
        · exact absurd rfl hk
        · exact absurd rfl hq'
  · obtain ⟨p, hrecord⟩ | hbid := hwill.bridged
    · obtain rfl | hrecord := pending_of_set hn (s.perform ok op).2 hrecord
      · exact Or.inr (AList.lookup_insert s.bridges)
      · exact Or.inl ⟨p, hrecord⟩
    · obtain hsame | hrecords | ⟨_, hremove⟩ := h.bridged_ran hg hn ok hpartner hx hbid
      · exact Or.inr hsame
      · -- the record that is carried out is of this very bridge
        cases op with
        | record k b p =>
          have hk : k = x := by simpa [Op.records] using hrecords
          subst hk
          have hb : b = bid := hwill.pending b p hop
          subst hb
          exact Or.inr (AList.lookup_insert s.bridges)
        | _ => contradiction
      · obtain ⟨w, hw, hgone⟩ := h.dropped x true hremove
        obtain rfl := hg.met.partner_unique hw.symm hpartner
        exact absurd hgone hy

theorem Links.bound_ran (hkeeps : op.Keeps s ok) (hpaired : (s.ran ok n c op rest).Partner x y)
    (hx : x ∉ (s.ran ok n c op rest).torn) (hy : y ∉ (s.ran ok n c op rest).torn) :
    ∃ bid, Will (s.ran ok n c op rest) x bid ∧ Will (s.ran ok n c op rest) y bid := by
  have hop := pending_head hn
  have hx₀ : x ∉ s.torn := fun hgone => hx (torn_mono hgone)
  have hy₀ : y ∉ s.torn := fun hgone => hy (torn_mono hgone)
  -- the bridge that is just opened, for a dialog of which nothing is to be recorded yet
  have hopened : ∀ z w, (∀ b p, ¬ Script.Pending s.handlers (.record z b p)) →
      .record z s.nextBridge w ∈ (s.perform ok op).2 →
      Will (s.ran ok n c op rest) z s.nextBridge := by
    intro z w hnone hrecord
    refine ⟨fun b p ho => ?_, Or.inl ⟨w, pending_new hn hrecord⟩⟩
    obtain hold | hnew := pending_set hn ho
    · exact absurd hold (hnone b p)
    · exact (perform_recordNew hnew).1
  obtain hpartner | ⟨i, room, p, rfl, rfl, hxy⟩ := partner_ran hpaired
  · obtain ⟨bid, hwx, hwy⟩ := h.bound x y hpartner hx₀ hy₀
    by_cases hrebuild : ∃ k q, op = .rebuild k q ∧ (x = k ∨ x = q)
    · obtain ⟨k, q, rfl, hk⟩ := hrebuild
      have hnamed := hg.bids.named _ k q hop (by simp [names])
      obtain ⟨hok, hnone⟩ := hkeeps.rebuilt (k, q) rfl
      subst hok
      have hwill : ∀ z w, z = k ∧ w = q ∨ z = q ∧ w = k →
          Will (s.ran true n c (.rebuild k q) rest) z s.nextBridge := by
        intro z w hz
        refine hopened z w ?_ ?_
        · rintro b p ⟨g, hg, ho⟩
          obtain ⟨hk, hq⟩ := hnone g hg _ ho
          obtain ⟨rfl, _⟩ | ⟨rfl, _⟩ := hz
          · simp [Op.records] at hk
          · simp [Op.records] at hq
        · obtain ⟨rfl, rfl⟩ | ⟨rfl, rfl⟩ := hz <;> simp [perform]
      obtain rfl | rfl := hk
      · obtain rfl := hg.met.partner_unique hnamed hpartner
        exact ⟨_, hwill x q (Or.inl ⟨rfl, rfl⟩), hwill q x (Or.inr ⟨rfl, rfl⟩)⟩
      · obtain rfl := hg.met.partner_unique hnamed.symm hpartner
        exact ⟨_, hwill x k (Or.inr ⟨rfl, rfl⟩), hwill k x (Or.inl ⟨rfl, rfl⟩)⟩
    · refine ⟨bid, h.will_ran hg hn hpartner hx₀ hy₀ hwx ?_,
        h.will_ran hg hn hpartner.symm hy₀ hx₀ hwy ?_⟩
      · intro k q ho
        exact ⟨fun hk => hrebuild ⟨k, q, ho, Or.inl hk⟩, fun hq => hrebuild ⟨k, q, ho, Or.inr hq⟩⟩
      · -- the other one is bridged anew only together with this one
        rintro k q rfl
        have hnamed := hg.bids.named _ k q hop (by simp [names])
        refine ⟨fun hk => ?_, fun hq => ?_⟩
        · subst hk
          exact hrebuild ⟨y, q, rfl, Or.inr (hg.met.partner_unique hpartner.symm hnamed)⟩
        · subst hq
          exact hrebuild ⟨k, y, rfl, Or.inl (hg.met.partner_unique hpartner.symm hnamed.symm)⟩
  · have hplain := (hkeeps.plain (i, p) rfl rfl).1
    have hnone : ∀ z, 0 < meets z (.connect i room p) → ∀ b w,
        ¬ Script.Pending s.handlers (.record z b w) := by
      intro z hmeets b w ho
      exact hg.met.unpaired hop hmeets (hg.bids.named _ z w ho (by simp [names]))
    have hmeets : 0 < meets p.dialogKey (.connect i room p) ∧
        0 < meets i.key (.connect i room p) := by
      simp only [meets, if_true]
      omega
    have hp : Will (s.ran true n c (.connect i room p) rest) p.dialogKey s.nextBridge :=
      hopened p.dialogKey i.key (hnone _ hmeets.1) (by simp [perform, hplain])
    have hi : Will (s.ran true n c (.connect i room p) rest) i.key s.nextBridge :=
      hopened i.key p.dialogKey (hnone _ hmeets.2) (by simp [perform, hplain])
    obtain ⟨rfl, rfl⟩ | ⟨rfl, rfl⟩ := hxy
    · exact ⟨_, hp, hi⟩
    · exact ⟨_, hi, hp⟩

end

section

variable (h : Links s)
include h

theorem Links.finds_partner (hg : Ground s)
    (hop : Script.Pending s.handlers (.findBridged x bid bye true)) (hpartner : s.Partner x y)
    (hy : s.bridges.lookup y = some bid) :
    .remove y true false ∈ (s.perform ok (.findBridged x bid bye true)).2 := by
  have hmem : ⟨y, bid⟩ ∈ s.bridges.entries := by
    rwa [← Option.mem_def, AList.mem_lookup_iff] at hy
  obtain ⟨e, he⟩ : ∃ e, s.bridges.entries.find? (fun e => decide (e.2 = bid)) = some e := by
    rw [← Option.isSome_iff_exists, List.find?_isSome]
    exact ⟨_, hmem, by simp⟩
  have hebid : e.2 = bid := by simpa using List.find?_some he
  have helookup : s.bridges.lookup e.1 = some bid := by
    rw [← Option.mem_def, AList.mem_lookup_iff, ← hebid]
    exact List.mem_of_find?_eq_some he
  -- whoever is on the bridge is the dialog itself, which is off it, or its partner
  have hey : e.1 = y := by
    have hclaim : s.Claims x bid := Or.inr ⟨_, hop, by simp [claims]⟩
    obtain hxe | hxe := hg.bids.shared x e.1 bid hclaim (Or.inl helookup)
    · rw [← hxe] at helookup
      exact absurd (AList.lookup_isSome.mp (by rw [helookup]; rfl)) (h.erased x bid bye true hop)
    · exact hg.met.partner_unique hxe hpartner
  simp [perform, he, hey]

theorem Links.falls_ran (hg : Ground s) (hn : s.handlers[n]? = some ⟨c, op :: rest⟩)
    (hpartner : s.Partner x y) (hx : x ∈ s.torn) (hy : y ∉ (s.ran ok n c op rest).torn)
    (hymem : y ∈ s.dialogs) (hfalling : Falling s x y) : Falling (s.ran ok n c op rest) x y := by
  have hop := pending_head hn
  have hy₀ : y ∉ s.torn := fun hgone => hy (torn_mono hgone)
  -- nothing is recorded of either any more
  have hrecords : op.records x = false ∧ op.records y = false := by
    cases op with
    | record k b p =>
      have hlive := h.live _ k p hop (by simp [names])
      have hnamed := hg.bids.named _ k p hop (by simp [names])
      simp only [Op.records, decide_eq_false_iff_not]
      refine ⟨?_, ?_⟩
      · rintro rfl
        exact hlive.1 hx
      · rintro rfl
        obtain rfl := hg.met.partner_unique hnamed hpartner.symm
        exact hlive.2 hx
    | _ => exact ⟨rfl, rfl⟩
  -- the partner is still on the bridge, or is torn down next
  have hybridged : ∀ bid, s.bridges.lookup y = some bid →
      (s.ran ok n c op rest).bridges.lookup y = some bid ∨ Falling (s.ran ok n c op rest) x y := by
    intro bid hbid
    obtain hsame | hrecord | ⟨rfl, hremove⟩ := h.bridged_ran hg hn ok hpartner.symm hy₀ hbid
    · exact Or.inl hsame
    · rw [hrecords.2] at hrecord
      contradiction
    · exact Or.inr (.removing ((pending_of_set hn _ hremove).resolve_left (by simp)))
  cases hfalling with
  | @unbridging bid bye hpending hbx hby =>
    obtain rfl | hstill := pending_of_set hn (s.perform ok op).2 hpending
    · have hfind : .findBridged x bid bye true ∈ (s.perform ok (.unbridge x bye true)).2 := by
        simp [perform, hbx]
      refine .finding (pending_new hn hfind) ?_
      have hne : y ≠ x := (hg.met.partner_ne hpartner).symm
      simp [perform, hbx, AList.lookup_erase_ne hne, hby]
    · obtain hy' | hfalls := hybridged bid hby
      · obtain hsame | hrecord | ⟨i, rfl, rfl⟩ | rfl | hunbridges | rfl := perform_bridged ok op hbx
        · exact .unbridging hstill hsame hy'
        · rw [hrecords.1] at hrecord
          contradiction
        · exact absurd hpartner (hg.met.unpaired hop (by simp [meets]))
        · exact absurd hop (h.unlinked x)
        · -- the dialog is unbridged once
          obtain rfl := hg.owed.unique hg.life x hop hpending hunbridges (by simp [unbridges])
          have hfind : .findBridged x bid bye true ∈ (s.perform ok (.unbridge x bye true)).2 := by
            simp [perform, hbx]
          exact .finding (pending_new hn hfind) hy'
        · obtain hgone | hremove := h.swept y bid hop (Or.inl hby)
          · exact absurd hgone hy₀
          · exact .removing ((pending_of_set hn _ hremove).resolve_left (by simp))
      · exact hfalls
  | @finding bid bye hpending hby =>
    obtain rfl | hstill := pending_of_set hn (s.perform ok op).2 hpending
    · exact .removing (pending_new hn (h.finds_partner hg hop hpartner hby))
    · obtain hy' | hfalls := hybridged bid hby
      · exact .finding hstill hy'
      · exact hfalls
  | removing hpending =>
    obtain rfl | hstill := pending_of_set hn (s.perform ok op).2 hpending
    · exact absurd (torn_of_remove hymem) hy
    · exact .removing hstill

theorem Links.falling_ran (hg : Ground s) (hn : s.handlers[n]? = some ⟨c, op :: rest⟩)
    (hkeeps : op.Keeps s ok) (hpaired : (s.ran ok n c op rest).Partner x y)
    (hx : x ∈ (s.ran ok n c op rest).torn) (hy : y ∉ (s.ran ok n c op rest).torn) :
    y ∈ (s.ran ok n c op rest).dialogs ∧ Falling (s.ran ok n c op rest) x y := by
  have hop := pending_head hn
  have hy₀ : y ∉ s.torn := fun hgone => hy (torn_mono hgone)
  have hstays : y ∈ s.dialogs → y ∈ (s.ran ok n c op rest).dialogs := by
    intro hymem
    obtain hmem | ⟨bye, top, rfl⟩ :
        y ∈ (s.perform ok op).1.dialogs ∨ ∃ bye top, op = .remove y bye top :=
      perform_dialogs s ok (Or.inl hymem)
    · exact hmem
    · exact absurd (torn_of_remove hymem) hy
  obtain hpartner | ⟨i, room, p, rfl, rfl, hxy⟩ := partner_ran hpaired
  · obtain hgone | ⟨bye, top, rfl, hmem⟩ := torn_ran hx
    · obtain ⟨hymem, hfalling⟩ := h.falling x y hpartner hgone hy₀
      exact ⟨hstays hymem, h.falls_ran hg hn hpartner hgone hy hymem hfalling⟩
    · -- the first of the two is torn down: the condition
      have hx₀ : x ∉ s.torn := fun hgone => hg.life.gone hgone hmem
      have hmay := hkeeps.mayEnd hmem hpartner
      rw [State.MayEnd, if_neg hy₀] at hmay
      obtain ⟨hymem, hnone⟩ := hmay
      obtain ⟨bid, hwx, hwy⟩ := h.bound x y hpartner hx₀ hy₀
      have hbx : s.bridges.lookup x = some bid := by
        obtain ⟨p, g, hg', ho⟩ | hbx := hwx.bridged
        · have hbridging := hnone g hg' _ ho
          simp [bridging] at hbridging
        · exact hbx
      have hby : s.bridges.lookup y = some bid := by
        obtain ⟨p, g, hg', ho⟩ | hby := hwy.bridged
        · have hnamed := hg.bids.named (.record y bid p) y p ⟨g, hg', ho⟩ (by simp [names])
          obtain rfl := hg.met.partner_unique hnamed hpartner.symm
          have hbridging := hnone g hg' _ ho
          simp [bridging] at hbridging
        · exact hby
      have htop : top = true := by
        by_contra htop
        obtain rfl : top = false := by simpa using htop
        obtain ⟨w, hw, hgone⟩ := h.dropped x bye hop
        obtain rfl := hg.met.partner_unique hw.symm hpartner
        exact hy₀ hgone
      subst htop
      obtain ⟨d, hd⟩ := Option.isSome_iff_exists.mp (AList.lookup_isSome.mpr hmem)
      have hunbridge : .unbridge x bye true ∈ (s.perform ok (.remove x bye true)).2 := by
        simp [perform, hd]
      have hsame : (s.ran ok n c (.remove x bye true) rest).bridges = s.bridges := by
        simp [perform, hd]
      rw [← hsame] at hbx hby
      exact ⟨hstays hymem, .unbridging (pending_new hn hunbridge) hbx hby⟩
  · obtain ⟨hp, hi⟩ := connect_not_torn hg hn hkeeps
    obtain ⟨rfl, rfl⟩ | ⟨rfl, rfl⟩ := hxy
    · exact absurd hx hp
    · exact absurd hx hi

theorem Links.gone_ran (hn : s.handlers[n]? = some ⟨c, op :: rest⟩)
    (hgone : x ∈ s.torn ∨ Script.Pending s.handlers (.remove x true false)) :
    x ∈ (s.ran ok n c op rest).torn ∨
      Script.Pending (s.ran ok n c op rest).handlers (.remove x true false) := by
  have hop := pending_head hn
  obtain hgone | hremove := hgone
  · exact Or.inl (torn_mono hgone)
  · obtain rfl | hstill := pending_of_set hn (s.perform ok op).2 hremove
    · left
      by_cases hx : x ∈ s.torn
      · exact torn_mono hx
      · obtain ⟨w, hw, hwgone⟩ := h.dropped x true hop
        exact torn_of_remove (h.falling w x hw hwgone hx).1
    · exact Or.inr hstill

theorem Links.swept_ran (hg : Ground s) (hn : s.handlers[n]? = some ⟨c, op :: rest⟩)
    (hretain : Script.Pending (s.ran ok n c op rest).handlers (.retainBridges bid))
    (hclaim : (s.ran ok n c op rest).bridges.lookup x = some bid ∨
      ∃ p, Script.Pending (s.ran ok n c op rest).handlers (.record x bid p)) :
    x ∈ (s.ran ok n c op rest).torn ∨
      Script.Pending (s.ran ok n c op rest).handlers (.remove x true false) := by
  have hop := pending_head hn
  have hbelow : bid < s.nextBridge := by
    obtain hold | hnew := pending_set hn hretain
    · exact hg.bids.sweeps bid hold
    · obtain ⟨key, bye, top, rfl⟩ := (perform_mono s ok op).2.2 bid hnew
      exact hg.bids.below key bid (Or.inr ⟨_, hop, by simp [claims]⟩)
  -- no one comes to an old bridge
  have hold : s.bridges.lookup x = some bid ∨ ∃ p, Script.Pending s.handlers (.record x bid p) := by
    obtain hbid | ⟨p, ho⟩ := hclaim
    · obtain hbid | ⟨p, rfl⟩ | ⟨rfl, _⟩ := perform_bridges hbid
      · exact Or.inl hbid
      · exact Or.inr ⟨p, hop⟩
      · exact absurd hbelow (Nat.lt_irrefl _)
    · obtain ho | hnew := pending_set hn ho
      · exact Or.inr ⟨p, ho⟩
      · exact absurd ((perform_recordNew hnew).1 ▸ hbelow) (Nat.lt_irrefl _)
  obtain hretain | hnew := pending_set hn hretain
  · exact h.gone_ran hn (h.swept x bid hretain hold)
  · obtain ⟨k, bye, top, rfl⟩ := (perform_mono s ok op).2.2 bid hnew
    have hk : k ∈ s.torn := hg.owed.torn hop (by simp [unbridges])
    by_cases hx : x ∈ s.torn
    · exact Or.inl (torn_mono hx)
    have hkclaim : s.Claims k bid := Or.inr ⟨_, hop, by simp [claims]⟩
    have hxclaim : s.Claims x bid :=
      hold.imp_right fun hrecorded => hrecorded.elim fun _ ho => ⟨_, ho, by simp [claims]⟩
    obtain rfl | hpartner := hg.bids.shared k x bid hkclaim hxclaim
    · exact absurd hk hx
    right
    have hbx : s.bridges.lookup x = some bid := by
      obtain hbx | ⟨p, ho⟩ := hold
      · exact hbx
      · have hnamed := hg.bids.named _ x p ho (by simp [names])
        obtain rfl := hg.met.partner_unique hnamed hpartner.symm
        exact absurd hk (h.live _ x p ho (by simp [names])).2
    cases (h.falling k x hpartner hk hx).2 with
    | unbridging hpending =>
      have heq := hg.owed.unique hg.life k hop hpending (by simp [unbridges])
        (by simp [unbridges])
      contradiction
    | finding hpending =>
      have heq := hg.owed.unique hg.life k hop hpending (by simp [unbridges])
        (by simp [unbridges])
      obtain ⟨_, _, _, rfl⟩ := Op.findBridged.inj heq
      exact pending_new hn (h.finds_partner hg hop hpartner hbx)
    | removing hpending => exact (pending_of_set hn _ hpending).resolve_left (by simp)

theorem Links.ran (hg : Ground s) (hn : s.handlers[n]? = some ⟨c, op :: rest⟩)
    (hkeeps : op.Keeps s ok) : Links (s.ran ok n c op rest) where
  unlinked key ho := by
    obtain hold | hnew := pending_set hn ho
    · exact h.unlinked key hold
    · obtain ⟨⟨k, p, rfl⟩, hok⟩ := perform_unrecordNew hnew
      rw [hok] at hkeeps
      exact absurd (hkeeps.rebuilt (k, p) rfl).1 (by decide)
  live _ _ _ ho hnames := h.live_ran hg hn hkeeps ho hnames
  settled _ _ _ ho hbridging hpaired hx := h.settled_ran hg hn hkeeps ho hbridging hpaired hx
  bound _ _ hpaired hx hy := h.bound_ran hg hn hkeeps hpaired hx hy
  falling _ _ hpaired hx hy := h.falling_ran hg hn hkeeps hpaired hx hy
  swept _ _ hretain hclaim := h.swept_ran hg hn hretain hclaim
  dropped _ _ ho := h.dropped_ran hg hn ho
  erased _ _ _ _ ho := h.erased_ran hg hn ho

end

/-! ## who is sent a BYE -/

/-- Of two partners that have both been torn down, the second is owed its BYE. -/
def SecondOwed (s : State) : Prop :=
  ∀ x y, s.Partner x y → x ∈ s.torn → y ∈ s.torn →
    [x, y].Sublist s.torn ∧ 1 ≤ s.owed y ∨ [y, x].Sublist s.torn ∧ 1 ≤ s.owed x

theorem second_removed (hn : s.handlers[n]? = some ⟨c, op :: rest⟩) (hkeeps : op.Keeps s ok)
    (hpartner : s.Partner x y) (hx : x ∈ s.torn) (hop : op = .remove y bye top)
    (hmem : y ∈ s.dialogs) :
    [x, y].Sublist (s.ran ok n c op rest).torn ∧ 1 ≤ (s.ran ok n c op rest).owed y := by
  subst hop
  have hmay := hkeeps.mayEnd hmem hpartner.symm
  rw [State.MayEnd, if_pos hx] at hmay
  subst hmay
  obtain ⟨d, hd⟩ := Option.isSome_iff_exists.mp (AList.lookup_isSome.mpr hmem)
  have htorn : (s.ran ok n c (.remove y true top) rest).torn = s.torn ++ [y] := by
    simp [perform, hd]
  refine ⟨?_, owed_of_ends hn ok ⟨hmem, top, rfl⟩⟩
  rw [htorn]
  exact (List.singleton_sublist.mpr hx).append (List.Sublist.refl [y])

theorem SecondOwed.ran (h : SecondOwed s) (hg : Ground s)
    (hn : s.handlers[n]? = some ⟨c, op :: rest⟩) (hkeeps : op.Keeps s ok) :
    SecondOwed (s.ran ok n c op rest) := by
  intro x y hpaired hx hy
  obtain hpartner | ⟨i, room, p, rfl, rfl, hxy⟩ := partner_ran hpaired
  · obtain hx₀ | ⟨bye, top, hop, hmem⟩ := torn_ran hx
    · obtain hy₀ | ⟨bye, top, hop, hmem⟩ := torn_ran hy
      · have htorn : s.torn.Sublist (s.ran ok n c op rest).torn := by
          obtain hsame | ⟨k, bye, top, d, rfl, hd, hperform⟩ := perform_torn s ok op
          · rw [withHandlers_torn, hsame]
          · rw [withHandlers_torn, hperform]
            exact List.sublist_append_left _ _
        refine (h x y hpartner hx₀ hy₀).imp ?_ ?_
        · exact fun ⟨hsub, howed⟩ => ⟨hsub.trans htorn, howed.trans (owed_mono hn ok y)⟩
        · exact fun ⟨hsub, howed⟩ => ⟨hsub.trans htorn, howed.trans (owed_mono hn ok x)⟩
      · exact Or.inl (second_removed hn hkeeps hpartner hx₀ hop hmem)
    · obtain hy₀ | ⟨bye', top', hop', _⟩ := torn_ran hy
      · exact Or.inr (second_removed hn hkeeps hpartner.symm hy₀ hop hmem)
      · have heq := hop.symm.trans hop'
        exact absurd (Op.remove.inj heq).1 (hg.met.partner_ne hpartner)
  · obtain ⟨hp, hi⟩ := connect_not_torn hg hn hkeeps
    obtain ⟨rfl, rfl⟩ | ⟨rfl, rfl⟩ := hxy
    · exact absurd hx hp
    · exact absurd hx hi

end Run

/-! ## the other steps -/

theorem Links.append (h : Links s) (hbeside : Beside s s')
    (hhandlers : s'.handlers = s.handlers ++ [⟨c, [op]⟩])
    (hop : ∀ x y, op.names x y = false ∧ op.bridging x = false ∧ (∀ bid, op ≠ .retainBridges bid) ∧
      (∀ bye, op ≠ .remove x bye false) ∧ (∀ bid bye top, op ≠ .findBridged x bid bye top) ∧
      op ≠ .unrecord x) : Links s' := by
  have hpending : ∀ o, Script.Pending s'.handlers o → Script.Pending s.handlers o ∨ o = op := by
    intro o ho
    rwa [hhandlers, pending_append, List.mem_singleton] at ho
  have hstill : ∀ o, Script.Pending s.handlers o → Script.Pending s'.handlers o := by
    intro o ho
    rw [hhandlers]
    exact Script.pending_append.mpr (Or.inl ho)
  have hpartner : ∀ {x y}, s'.Partner x y → s.Partner x y := by
    intro x y hpaired
    rwa [State.Partner, hbeside.pairs] at hpaired
  have hrecord : ∀ x b p, Script.Pending s'.handlers (.record x b p) →
      Script.Pending s.handlers (.record x b p) := by
    intro x b p ho
    obtain ho | ho := hpending _ ho
    · exact ho
    · have hnames := (hop x p).1
      rw [← ho] at hnames
      simp [names] at hnames
  have hwill : ∀ {x bid}, Will s x bid → Will s' x bid := by
    intro x bid hw
    refine ⟨fun b p ho => hw.pending b p (hrecord x b p ho), ?_⟩
    rw [hbeside.bridges]
    exact hw.bridged.imp_left fun hrecorded => hrecorded.imp fun _ ho => hstill _ ho
  constructor
  · intro key ho
    obtain ho | ho := hpending _ ho
    · exact h.unlinked key ho
    · exact (hop key key).2.2.2.2.2 ho.symm
  · intro o x y ho hnames
    rw [hbeside.torn]
    obtain ho | rfl := hpending o ho
    · exact h.live o x y ho hnames
    · rw [(hop x y).1] at hnames
      contradiction
  · intro o x y ho hbridging hpaired hx
    rw [hbeside.torn] at hx ⊢
    obtain ho | rfl := hpending o ho
    · exact h.settled o x y ho hbridging (hpartner hpaired) hx
    · rw [(hop x y).2.1] at hbridging
      contradiction
  · intro x y hpaired hx hy
    rw [hbeside.torn] at hx hy
    obtain ⟨bid, hwx, hwy⟩ := h.bound x y (hpartner hpaired) hx hy
    exact ⟨bid, hwill hwx, hwill hwy⟩
  · intro x y hpaired hx hy
    rw [hbeside.torn] at hx hy
    obtain ⟨hmem, hfalling⟩ := h.falling x y (hpartner hpaired) hx hy
    rw [hbeside.dialogs]
    refine ⟨hmem, ?_⟩
    cases hfalling with
    | unbridging ho hbx hby =>
      exact .unbridging (hstill _ ho) (hbeside.bridges ▸ hbx) (hbeside.bridges ▸ hby)
    | finding ho hby => exact .finding (hstill _ ho) (hbeside.bridges ▸ hby)
    | removing ho => exact .removing (hstill _ ho)
  · intro x bid ho hclaim
    rw [hbeside.torn]
    rw [hbeside.bridges] at hclaim
    obtain ho | ho := hpending _ ho
    · have hold : s.bridges.lookup x = some bid ∨
          ∃ p, Script.Pending s.handlers (.record x bid p) :=
        hclaim.imp_right fun hrecorded => hrecorded.imp fun p hp => hrecord x bid p hp
      exact (h.swept x bid ho hold).imp_right (hstill _)
    · exact absurd ho.symm ((hop x x).2.2.1 bid)
  · intro y bye ho
    obtain ho | ho := hpending _ ho
    · obtain ⟨x, hx, hgone⟩ := h.dropped y bye ho
      exact ⟨x, by rwa [State.Partner, hbeside.pairs], by rwa [hbeside.torn]⟩
    · exact absurd ho.symm ((hop y y).2.2.2.1 bye)
  · intro x bid bye top ho
    rw [hbeside.bridges]
    obtain ho | ho := hpending _ ho
    · exact h.erased x bid bye top ho
    · exact absurd ho.symm ((hop x x).2.2.2.2.1 bid bye top)

theorem Links.idle (h : Links s) (hbeside : Beside s s') (hhandlers : s'.handlers = s.handlers) :
    Links s' := by
  have hwill : ∀ {x bid}, Will s x bid → Will s' x bid := by
    intro x bid hw
    refine ⟨?_, ?_⟩
    · rw [hhandlers]
      exact hw.pending
    · rw [hhandlers, hbeside.bridges]
      exact hw.bridged
  constructor
  · rw [hhandlers]
    exact h.unlinked
  · rw [hhandlers, hbeside.torn]
    exact h.live
  · simp only [State.Partner, hhandlers, hbeside.torn, hbeside.pairs]
    exact h.settled
  · simp only [State.Partner, hbeside.torn, hbeside.pairs]
    intro x y hpaired hx hy
    obtain ⟨bid, hwx, hwy⟩ := h.bound x y hpaired hx hy
    exact ⟨bid, hwill hwx, hwill hwy⟩
  · simp only [State.Partner, hbeside.torn, hbeside.pairs, hbeside.dialogs]
    intro x y hpaired hx hy
    obtain ⟨hmem, hfalling⟩ := h.falling x y hpaired hx hy
    refine ⟨hmem, ?_⟩
    cases hfalling with
    | unbridging ho hbx hby =>
      exact .unbridging (hhandlers ▸ ho) (hbeside.bridges ▸ hbx) (hbeside.bridges ▸ hby)
    | finding ho hby => exact .finding (hhandlers ▸ ho) (hbeside.bridges ▸ hby)
    | removing ho => exact .removing (hhandlers ▸ ho)
  · rw [hhandlers, hbeside.torn, hbeside.bridges]
    exact h.swept
  · simp only [State.Partner, hhandlers, hbeside.torn, hbeside.pairs]
    exact h.dropped
  · rw [hhandlers, hbeside.bridges]
    exact h.erased

theorem SecondOwed.beside (h : SecondOwed s) (hbeside : Beside s s')
    (howed : ∀ key, s.owed key ≤ s'.owed key) : SecondOwed s' := by
  intro x y hpaired hx hy
  rw [State.Partner, hbeside.pairs] at hpaired
  rw [hbeside.torn] at hx hy ⊢
  refine (h x y hpaired hx hy).imp ?_ ?_
  · rintro ⟨hsub, hone⟩
    exact ⟨hsub, hone.trans (howed y)⟩
  · rintro ⟨hsub, hone⟩
    exact ⟨hsub, hone.trans (howed x)⟩

theorem Beside.owed_append (h : Beside s s')
    (hhandlers : s'.handlers = s.handlers ++ [⟨c, [op]⟩]) (key : DialogKey) :
    s.owed key ≤ s'.owed key := by
  rw [owed, owed, hhandlers, weigh_append, h.byes]
  omega

theorem Links.step (h : Links s ∧ SecondOwed s) (hg : Ground s) {a : Action} (hok : KeepsPairs s a)
    (hstep : s.step a = some s') : Links s' ∧ SecondOwed s' := by
  obtain ⟨hlinks, howed⟩ := h
  cases State.moves hstep with
  | run hn hop hs' =>
    subst hs'
    exact ⟨hlinks.ran hg hn (hok _ hop), howed.ran hg hn (hok _ hop)⟩
  | @invite i hnew hbeside hhandlers =>
    obtain ⟨o, hops, ho⟩ := i.ops_eq
    rw [hops] at hhandlers
    refine ⟨hlinks.append hbeside hhandlers fun x y => ?_,
      howed.beside hbeside (hbeside.owed_append hhandlers)⟩
    obtain rfl | rfl | rfl | ⟨room, leg, _, rfl⟩ := ho <;> simp [names, bridging]
  | @request _ op hop hbeside hhandlers =>
    refine ⟨hlinks.append hbeside hhandlers fun x y => ?_,
      howed.beside hbeside (hbeside.owed_append hhandlers)⟩
    cases op with
    | remove k bye top =>
      cases bye <;> cases top <;> first | contradiction | simp [names, bridging]
    | _ => first | contradiction | simp [names, bridging]
  | idle hbeside hhandlers =>
    refine ⟨hlinks.idle hbeside hhandlers, howed.beside hbeside fun key => ?_⟩
    rw [owed, owed, hhandlers, hbeside.byes]

/-! ## the result -/

theorem Links.restore (guarded : Bool) (records : List DialogRecord) :
    Links (State.restore guarded records) ∧ SecondOwed (State.restore guarded records) := by
  refine ⟨?_, fun x y hpaired => ?_⟩
  · constructor <;> simp [State.restore, Script.Pending, State.Partner]
  · simp [State.restore, State.Partner] at hpaired

/-- **Paired calls end together.**  In every run whose operations all keep pairs
together, whenever no handler is at work: of two dialogs that have been paired,
if one has been torn down, so has the other, and the second of the two has been
sent exactly one BYE. -/
theorem paired_end_together (guarded : Bool) (records : List DialogRecord) (acts : List Action)
    (s : State) (hexec : exec step (State.restore guarded records) acts = some s)
    (hkeeps : Meets step KeepsPairs (State.restore guarded records) acts)
    (hquiet : Script.Quiet s.handlers) : EndTogether s := by
  have h : Ground s ∧ Links s ∧ SecondOwed s := by
    refine exec_invariant_of_meets (I := fun s => Ground s ∧ Links s ∧ SecondOwed s) ?_ hexec hkeeps
      ⟨Ground.restore guarded records, Links.restore guarded records⟩
    rintro s a s' ⟨hg, hlinks⟩ hok hstep
    exact ⟨hg.step hstep, Links.step hlinks hg hok hstep⟩
  obtain ⟨hg, hlinks, howed⟩ := h
  -- with nothing pending, what is owed has been sent
  have hsent : ∀ key, 1 ≤ s.owed key → s.byes.count key = 1 := by
    intro key hone
    have hle := hg.owed.bye key
    have honce := hg.life.once key
    have hzero : weigh (Op.byes key) s.handlers = 0 := hquiet.weigh_eq_zero
    unfold owed at hone hle
    split at honce <;> omega
  intro x y hpartner hx
  have hy : y ∈ s.torn := by
    by_contra hy
    cases (hlinks.falling x y hpartner hx hy).2 with
    | unbridging ho | finding ho | removing ho => exact hquiet.not_pending ho
  refine (howed x y hpartner hx hy).imp ?_ ?_
  · exact fun ⟨hsub, hone⟩ => ⟨hsub, hsent y hone⟩
  · exact fun ⟨hsub, hone⟩ => ⟨hsub, hsent x hone⟩

/-- Two calls are bridged, one of them moves its media, and the other hangs up. -/
def endedPair : List Action :=
  pairedCalls ++
    .refresh ("a", "1", "2") (.moving false) ::
      Action.runs 2 11 ++
    .bye ("b", "1", "2") :: Action.runs 3 19

theorem paired_end_together_moved :
    ∃ s, exec step (State.restore false []) endedPair = some s ∧
      s.torn = [("b", "1", "2"), ("a", "1", "2")] ∧ s.byes = [("a", "1", "2")] ∧ EndTogether s := by
  have hrun : (exec step (State.restore false []) endedPair).map
      (fun s => (decide (s.torn = [("b", "1", "2"), ("a", "1", "2")]),
        decide (s.byes = [("a", "1", "2")]), decide (Script.Quiet s.handlers))) =
      some (true, true, true) := by
    decide +kernel
  obtain ⟨s, hexec, hs⟩ := Option.map_eq_some_iff.mp hrun
  simp only [Prod.mk.injEq, decide_eq_true_eq] at hs
  obtain ⟨htorn, hbyes, hquiet⟩ := hs
  exact ⟨s, hexec, htorn, hbyes,
    paired_end_together false [] endedPair s hexec (by decide +kernel) hquiet⟩

/-- Two callers with different codecs are paired through a transcoder, and one hangs up. -/
def transcodedPair : List Action :=
  .invite (.into "r" "a" 1 .pcmu) :: Action.runs 0 5 ++
    .invite (.into "r" "b" 2 .pcma) :: Action.runs 1 8 ++ .bye ("a", "1", "2") :: Action.runs 2 8

/-- The other call stays up, and its peer hears nothing of it. -/
theorem transcoded_call_survives :
    ¬ ∀ (guarded : Bool) (records : List DialogRecord) (acts : List Action) (s : State),
      exec step (State.restore guarded records) acts = some s → Script.Quiet s.handlers →
      EndTogether s := by
  intro h
  have hrun : (exec step (State.restore false []) transcodedPair).map
      (fun s => (decide (Script.Quiet s.handlers), decide (s.pairs = [(("a", "1", "2"), ("b", "1", "2"))]),
        decide (s.torn = [("a", "1", "2")]), decide (s.byes = []))) =
      some (true, true, true, true) := by
    decide +kernel
  obtain ⟨s, hexec, hs⟩ := Option.map_eq_some_iff.mp hrun
  simp only [Prod.mk.injEq, decide_eq_true_eq] at hs
  obtain ⟨hquiet, hpairs, htorn, hbyes⟩ := hs
  have hend := h false [] transcodedPair s hexec hquiet ("a", "1", "2") ("b", "1", "2")
    (by simp [State.Partner, hpairs]) (by simp [htorn])
  rw [htorn, hbyes] at hend
  exact absurd hend (by decide)

end SmithsNet.Uas.Calls
