import SmithsNet.Uas.Lifecycle

/-!
# SmithsNet.Uas.Unacked

Calls whose 2xx has not been acknowledged.  A dialog is early from its 2xx to
the ACK; meanwhile a loop sends the 2xx again, and when it has used up its
budget it asks the worker of the dialog to end the call.  So something is
always there that will either see the ACK or end the call.

`unacked_covered`: that holds in every state of every run that starts with no
early dialog and in which no 2xx of an early dialog fails to be sent again.
`unacked_leaks`: a loop whose send fails leaves without a word, and a dialog
that is restored early has no loop.
-/

namespace SmithsNet.Uas.Calls

open Lib SmithsNet.Core State

/-- The dialog is in the table, and its 2xx is not acknowledged. -/
def State.Early (s : State) (key : DialogKey) : Prop :=
  ∃ d, s.dialogs.lookup key = some d ∧ d.state = .early

/-- The loop has not been stopped, and was not left for a failed send. -/
def Loop.live (l : Loop) : Bool :=
  !l.cancelled && (l.phase == .running || l.phase == .leaving true)

/-- The loop has found its token live after its budget, and will hand in its event. -/
def Loop.handingIn (l : Loop) : Bool := l.phase == .releasing true || l.phase == .notifying

/-- Something will see the ACK or end the call. -/
inductive Covered (s : State) (key : DialogKey) : Prop
  /-- A live loop is registered. -/
  | loop {n : Nat} {l : Loop} (hslot : s.retransmits.lookup key = some n) (hn : s.loops[n]? = some l)
      (hl : l.live = true)
  /-- The event is on its way: from the loop, in the queue, or with its handler. -/
  | handedIn {n : Nat} {l : Loop} (hn : s.loops[n]? = some l) (hkey : l.key = key)
      (hl : l.handingIn = true)
  | queued (h : .ackTimeout key ∈ s.queue)
  | checked (h : Script.Pending s.handlers (.checkAck key))
  | removed {bye top : Bool} (h : Script.Pending s.handlers (.remove key bye top))
  /-- The 2xx is still to be sent. -/
  | unsent (h : Script.Pending s.handlers (.spawn2xx key))

/-- No call is left early for good. -/
def AckAwaited (s : State) : Prop := ∀ key, s.Early key → Covered s key

/-- The 2xx of an early dialog is never lost on the way out. -/
def SendsSucceed (s : State) : Action → Prop
  | .retransmit n false => ∀ l ∈ s.loops[n]?, ∀ d ∈ s.dialogs.lookup l.key, d.state ≠ .early
  | _ => True

instance (s : State) : (a : Action) → Decidable (SendsSucceed s a)
  | .retransmit _ false => inferInstanceAs (Decidable (∀ _ ∈ _, ∀ _ ∈ _, _))
  | .retransmit _ true | .invite _ | .refresh _ _ | .ack _ | .bye _ | .internal _ | .run _ _
  | .expire _ | .strike _ | .giveUp _ | .quit _ | .settle _ | .release _ | .notify _ =>
    inferInstanceAs (Decidable True)

/-! ## the invariant -/

structure AckInv (s : State) : Prop where
  slots : ∀ key n, s.retransmits.lookup key = some n → ∃ l, s.loops[n]? = some l ∧ l.key = key
  /-- A loop is started for a dialog that is or was in the table. -/
  spawning : Script.Each (fun _ o => ∀ key, o = .spawn2xx key → key ∈ s.dialogs ∨ key ∈ s.torn)
    s.handlers
  spawned : ∀ (n : Nat) (l : Loop), s.loops[n]? = some l → l.key ∈ s.dialogs ∨ l.key ∈ s.torn
  /-- A loop that was left for a failed send is of no early dialog. -/
  failed : ∀ (n : Nat) (l : Loop), s.loops[n]? = some l →
    l.phase = .leaving false ∨ l.phase = .releasing false → ¬ s.Early l.key
  confirms : Script.Each (fun c o => ∀ key, o = .confirm key → c = key.1) s.handlers
  /-- A loop is stopped only once its dialog is not early any more. -/
  cancels : Script.Each (fun c o => ∀ key, o = .cancel2xx key →
    ¬ s.Early key ∧ (key ∈ s.torn ∨ c = key.1)) s.handlers
  covered : AckAwaited s

theorem early_iff {s s' : State} (h : s'.dialogs = s.dialogs) (key : DialogKey) :
    s'.Early key ↔ s.Early key := by
  rw [State.Early, h, State.Early]

/-- The operations that have to do with early dialogs and their loops. -/
def Op.isAckOp : Op → Bool
  | establish _ | lookUp _ _ | spawn2xx _ | confirm _ | checkAck _ | remove _ _ _ | cancel2xx _ => true
  | _ => false

variable {key : DialogKey} {rest new : List Op} {n : Nat} {op : Op} {c : String}

theorem perform_other (s : State) (ok : Bool) (hop : op.isAckOp = false) :
    (s.perform ok op).1.dialogs = s.dialogs ∧ (s.perform ok op).1.loops = s.loops ∧
      (s.perform ok op).1.retransmits = s.retransmits ∧ (s.perform ok op).1.torn = s.torn ∧
      ∀ key, .spawn2xx key ∉ (s.perform ok op).2 ∧ .confirm key ∉ (s.perform ok op).2 ∧
        .cancel2xx key ∉ (s.perform ok op).2 := by
  cases op <;> first | contradiction | skip
  all_goals simp only [perform]
  all_goals try split
  all_goals try split
  all_goals
    refine ⟨?_, ?_, ?_, ?_, ?_⟩ <;> simp

variable {s s' : State}

theorem Covered.run (h : Covered s key) (hn : s.handlers[n]? = some ⟨c, op :: rest⟩)
    (hhandlers : s'.handlers = s.handlers.set n ⟨c, new ++ rest⟩) (hqueue : s'.queue = s.queue)
    (hloop : ∀ (m : Nat) (l : Loop), s.retransmits.lookup key = some m → s.loops[m]? = some l →
      l.live = true → Covered s' key)
    (hhand : ∀ (m : Nat) (l : Loop), s.loops[m]? = some l → l.key = key → l.handingIn = true →
      Covered s' key)
    (hop : op = .checkAck key ∨ (∃ bye top, op = .remove key bye top) ∨ op = .spawn2xx key →
      Covered s' key) : Covered s' key := by
  cases h with
  | loop hslot hm hl => exact hloop _ _ hslot hm hl
  | handedIn hm hkey hl => exact hhand _ _ hm hkey hl
  | queued hq => exact .queued (hqueue ▸ hq)
  | checked hp =>
    obtain rfl | hp := Script.pending_of_set hn new hp
    · exact hop (Or.inl rfl)
    · exact .checked (hhandlers ▸ hp)
  | removed hp =>
    obtain rfl | hp := Script.pending_of_set hn new hp
    · exact hop (Or.inr (Or.inl ⟨_, _, rfl⟩))
    · exact .removed (hhandlers ▸ hp)
  | unsent hp =>
    obtain rfl | hp := Script.pending_of_set hn new hp
    · exact hop (Or.inr (Or.inr rfl))
    · exact .unsent (hhandlers ▸ hp)

theorem Covered.run_same (h : Covered s key) (hn : s.handlers[n]? = some ⟨c, op :: rest⟩)
    (hhandlers : s'.handlers = s.handlers.set n ⟨c, new ++ rest⟩) (hqueue : s'.queue = s.queue)
    (hloops : s'.loops = s.loops) (hslots : s'.retransmits = s.retransmits)
    (hop : op = .checkAck key ∨ (∃ bye top, op = .remove key bye top) ∨ op = .spawn2xx key →
      Covered s' key) : Covered s' key := by
  refine h.run hn hhandlers hqueue ?_ ?_ hop
  · intro m l hslot hm hl
    exact .loop (by rw [hslots]; exact hslot) (by rw [hloops]; exact hm) hl
  · intro m l hm hkey hl
    exact .handedIn (by rw [hloops]; exact hm) hkey hl

/-! ## the operations -/

section Run

variable {n : Nat} {c : String} {rest new : List Op} {op : Op}

theorem AckInv.run_same (h : AckInv s) (hn : s.handlers[n]? = some ⟨c, op :: rest⟩)
    (hhandlers : s'.handlers = s.handlers.set n ⟨c, new ++ rest⟩) (hqueue : s'.queue = s.queue)
    (hloops : s'.loops = s.loops) (hslots : s'.retransmits = s.retransmits)
    (hearly : ∀ key, s'.Early key → s.Early key)
    (hknown : ∀ key, key ∈ s.dialogs ∨ key ∈ s.torn → key ∈ s'.dialogs ∨ key ∈ s'.torn)
    (htorn : ∀ key ∈ s.torn, key ∈ s'.torn)
    (hspawn : ∀ key, .spawn2xx key ∈ new → key ∈ s.dialogs ∨ key ∈ s.torn)
    (hconfirm : ∀ key, .confirm key ∉ new)
    (hcancel : ∀ key, .cancel2xx key ∈ new → ¬ s'.Early key ∧ (key ∈ s'.torn ∨ c = key.1))
    (hop : ∀ key, s'.Early key →
      op = .checkAck key ∨ (∃ bye top, op = .remove key bye top) ∨ op = .spawn2xx key →
      Covered s' key) : AckInv s' where
  slots := by
    rw [hslots, hloops]
    exact h.slots
  spawning := by
    rw [hhandlers]
    refine (h.spawning.imp fun _ o ho key hkey => hknown key (ho key hkey)).set hn ?_
    rintro _ ho key rfl
    exact hknown key (hspawn key ho)
  spawned := by
    intro m l hm
    rw [hloops] at hm
    exact hknown l.key (h.spawned m l hm)
  failed := by
    intro m l hm hl he
    rw [hloops] at hm
    exact h.failed m l hm hl (hearly l.key he)
  confirms := by
    rw [hhandlers]
    refine h.confirms.set hn ?_
    rintro _ ho key rfl
    exact absurd ho (hconfirm key)
  cancels := by
    rw [hhandlers]
    have hstill : Script.Each (fun c o => ∀ key, o = .cancel2xx key →
        ¬ s'.Early key ∧ (key ∈ s'.torn ∨ c = key.1)) s.handlers := by
      refine h.cancels.imp fun _ o ho key hkey => ?_
      obtain ⟨hnot, hrest⟩ := ho key hkey
      exact ⟨fun he => hnot (hearly key he), hrest.imp_left (htorn key)⟩
    refine hstill.set hn ?_
    rintro _ ho key rfl
    exact hcancel key ho
  covered := by
    intro key he
    exact (h.covered key (hearly key he)).run_same hn hhandlers hqueue hloops hslots (hop key he)

theorem AckInv.establish (h : AckInv s) (hlife : Life s) {i : Invite}
    (hn : s.handlers[n]? = some ⟨c, .establish i :: rest⟩) (ok : Bool) :
    AckInv ((s.perform ok (.establish i)).1.withHandlers
      (s.handlers.set n ⟨c, i.establishOps ++ rest⟩)) := by
  have hbrings : Op.brings i.key (.establish i) = true := by simp [Op.brings]
  obtain ⟨hnot, hnottorn⟩ := hlife.fresh (Script.pending_head hn) hbrings
  have hold : ∀ key, key ≠ i.key →
      (((s.perform ok (.establish i)).1.withHandlers
        (s.handlers.set n ⟨c, i.establishOps ++ rest⟩)).Early key ↔ s.Early key) := by
    intro key hkey
    simp only [State.Early, State.withHandlers_dialogs, perform, AList.lookup_insert_ne hkey]
  have hgrows : ∀ {key}, key ∈ s.dialogs ∨ key ∈ s.torn →
      key ∈ s.dialogs.insert i.key ⟨.early, i.room⟩ ∨ key ∈ s.torn := by
    intro key hkey
    exact hkey.imp_left fun hmem => (AList.mem_insert _).mpr (Or.inr hmem)
  constructor
  · exact h.slots
  · refine (h.spawning.imp fun _ o ho key hkey => hgrows (ho key hkey)).set hn fun o ho key hkey => ?_
    subst hkey
    have hkey : key = i.key := by simpa using ho
    exact Or.inl ((AList.mem_insert _).mpr (Or.inl hkey))
  · exact fun m l hm => hgrows (h.spawned m l hm)
  · intro m l hm hl
    have hne : l.key ≠ i.key := by
      intro hkey
      have hspawned := h.spawned m l hm
      rw [hkey] at hspawned
      exact hspawned.elim hnot hnottorn
    rw [hold l.key hne]
    exact h.failed m l hm hl
  · refine h.confirms.set hn fun o ho key hkey => ?_
    subst hkey
    simp at ho
  · -- the INVITE's own script stops no loop, and no other handler of the key is at work
    have hcancels : ∀ g ∈ s.handlers, ∀ key, .cancel2xx key ∈ g.ops → key ≠ i.key := by
      rintro g hg key hop rfl
      obtain ⟨_, htorn | howner⟩ := h.cancels g hg _ hop _ rfl
      · exact hnottorn htorn
      · have hmem := List.mem_of_getElem? hn
        have hown := hlife.own _ hmem (.establish i) List.mem_cons_self i.key hbrings
        obtain ⟨j, hj⟩ := List.getElem?_of_mem hg
        have hjn := hlife.serial j n g _ hj hn (List.ne_nil_of_mem hop) (List.cons_ne_nil _ _)
          (howner.trans hown.symm)
        subst hjn
        obtain rfl := Option.mem_unique hj hn
        obtain ⟨links, last, hops, hlinks⟩ :=
          hlife.attaching _ hmem ⟨_, List.mem_cons_self, i.key, hbrings⟩
        cases links with
        | nil =>
          obtain ⟨_, rfl⟩ := List.cons.inj hops
          simp at hop
        | cons l links =>
          obtain ⟨rfl, _⟩ := List.cons.inj hops
          exact absurd (hlinks _ List.mem_cons_self) (by simp [Op.isLink])
    have hstill : Script.Each (fun c o => ∀ key, o = .cancel2xx key →
        ¬ ((s.perform ok (.establish i)).1.withHandlers
          (s.handlers.set n ⟨c, i.establishOps ++ rest⟩)).Early key ∧
          (key ∈ s.torn ∨ c = key.1)) s.handlers := by
      intro g hg o ho key hkey
      subst hkey
      have hne := hcancels g hg key ho
      obtain ⟨hearly, hrest⟩ := h.cancels g hg _ ho key rfl
      exact ⟨fun he => hearly ((hold key hne).mp he), hrest⟩
    refine hstill.set hn fun o ho key hkey => ?_
    subst hkey
    simp at ho
  · intro key hearly
    by_cases hkey : key = i.key
    · subst hkey
      exact .unsent (Script.pending_new hn (by simp))
    · refine (h.covered key ((hold key hkey).mp hearly)).run_same hn rfl rfl rfl rfl ?_
      rintro (ho | ⟨_, _, ho⟩ | ho) <;> contradiction

theorem AckInv.other (h : AckInv s) (hn : s.handlers[n]? = some ⟨c, op :: rest⟩)
    (hop : op.isAckOp = false) (ok : Bool) : AckInv (s.ran ok n c op rest) := by
  obtain ⟨hdialogs, hloops, hslots, htorn, hnew⟩ := perform_other s ok hop
  refine h.run_same hn rfl (perform_frame s ok op).2 hloops hslots ?_ ?_ ?_ ?_ ?_ ?_ ?_
  · exact fun key => (early_iff hdialogs key).mp
  · intro key hkey
    simpa only [State.withHandlers_dialogs, State.withHandlers_torn, hdialogs, htorn] using hkey
  · intro key hkey
    simpa only [State.withHandlers_torn, htorn] using hkey
  · exact fun key hkey => absurd hkey (hnew key).1
  · exact fun key => (hnew key).2.1
  · exact fun key hkey => absurd hkey (hnew key).2.2
  · rintro key _ (rfl | ⟨_, _, rfl⟩ | rfl) <;> contradiction

variable {k : DialogKey}

theorem AckInv.lookUp (h : AckInv s) {r : Refresh}
    (hn : s.handlers[n]? = some ⟨c, .lookUp k r :: rest⟩) (ok : Bool) :
    AckInv (s.ran ok n c (.lookUp k r) rest) := by
  refine h.run_same hn rfl rfl rfl rfl (fun _ he => he) (fun _ hkey => hkey) (fun _ hkey => hkey)
    ?_ ?_ ?_ ?_
  · intro key hkey
    simp only [perform] at hkey
    split at hkey
    · next hmem =>
      have heq : r.invite = true ∧ key = k := by simpa using hkey
      exact Or.inl (heq.2 ▸ hmem)
    · contradiction
  · intro key
    simp only [perform]
    split <;> simp
  · intro key hkey
    simp only [perform] at hkey
    split at hkey <;> simp at hkey
  · rintro key _ (ho | ⟨_, _, ho⟩ | ho) <;> contradiction

theorem AckInv.confirm (h : AckInv s)
    (hn : s.handlers[n]? = some ⟨c, .confirm k :: rest⟩) (ok : Bool) :
    AckInv (s.ran ok n c (.confirm k) rest) := by
  have howner : c = k.1 := h.confirms.head hn k rfl
  simp only [ran, perform]
  cases hd : s.dialogs.lookup k with
  | none =>
    refine h.run_same hn rfl rfl rfl rfl (fun _ he => he) (fun _ hkey => hkey)
      (fun _ hkey => hkey) (by simp) (by simp) ?_ ?_
    · intro key hkey
      have heq : key = k := by simpa using hkey
      subst heq
      refine ⟨?_, Or.inr howner⟩
      rintro ⟨d, hlookup, _⟩
      rw [State.withHandlers_dialogs, hd] at hlookup
      contradiction
    · rintro key _ (ho | ⟨_, _, ho⟩ | ho) <;> contradiction
  | some d =>
    have hnot : ∀ key, (∃ e, (s.dialogs.insert k { d with state := .confirmed }).lookup key = some e ∧
        e.state = .early) → key ≠ k ∧ s.Early key := by
      rintro key ⟨e, hlookup, hstate⟩
      by_cases hkey : key = k
      · subst hkey
        rw [AList.lookup_insert, Option.some.injEq] at hlookup
        subst hlookup
        contradiction
      · rw [AList.lookup_insert_ne hkey] at hlookup
        exact ⟨hkey, e, hlookup, hstate⟩
    refine h.run_same hn rfl rfl rfl rfl (fun key he => (hnot key he).2) ?_
      (fun _ hkey => hkey) (by simp) (by simp) ?_ ?_
    · exact fun key hkey => hkey.imp_left fun hmem => (AList.mem_insert _).mpr (Or.inr hmem)
    · intro key hkey
      have heq : key = k := by simpa using hkey
      subst heq
      exact ⟨fun he => (hnot key he).1 rfl, Or.inr howner⟩
    · rintro key _ (ho | ⟨_, _, ho⟩ | ho) <;> contradiction

theorem AckInv.checkAck (h : AckInv s)
    (hn : s.handlers[n]? = some ⟨c, .checkAck k :: rest⟩) (ok : Bool) :
    AckInv (s.ran ok n c (.checkAck k) rest) := by
  have hnew : ∀ o ∈ (s.perform ok (.checkAck k)).2, o = .remove k true true := by
    intro o ho
    simp only [perform] at ho
    split at ho
    · split at ho
      · exact List.mem_singleton.mp ho
      · contradiction
    · contradiction
  have hstate : (s.perform ok (.checkAck k)).1 = s := by
    simp only [perform]
    split <;> rfl
  rw [ran, hstate]
  refine h.run_same hn rfl rfl rfl rfl (fun _ he => he) (fun _ hkey => hkey) (fun _ hkey => hkey)
    ?_ ?_ ?_ ?_
  · intro key hkey
    cases hnew _ hkey
  · intro key hkey
    cases hnew _ hkey
  · intro key hkey
    cases hnew _ hkey
  · rintro key ⟨d, hlookup, hstate⟩ (ho | ⟨_, _, ho⟩ | ho)
    · cases ho
      have hlookup : s.dialogs.lookup k = some d := hlookup
      have hremove : .remove k true true ∈ (s.perform ok (.checkAck k)).2 := by
        simp [perform, hlookup, hstate]
      exact .removed (Script.pending_new hn hremove)
    · contradiction
    · contradiction

theorem AckInv.remove (h : AckInv s) {bye top : Bool}
    (hn : s.handlers[n]? = some ⟨c, .remove k bye top :: rest⟩) (ok : Bool) :
    AckInv (s.ran ok n c (.remove k bye top) rest) := by
  simp only [ran, perform]
  cases hd : s.dialogs.lookup k with
  | none =>
    refine h.run_same hn rfl rfl rfl rfl (fun _ he => he) (fun _ hkey => hkey)
      (fun _ hkey => hkey) (by simp) (by simp) (by simp) ?_
    rintro key ⟨d, hlookup, _⟩ (ho | ⟨_, _, ho⟩ | ho)
    · contradiction
    · cases ho
      rw [State.withHandlers_dialogs, hd] at hlookup
      contradiction
    · contradiction
  | some d =>
    have hnot : ∀ key, (∃ e, (s.dialogs.erase k).lookup key = some e ∧ e.state = .early) →
        key ≠ k ∧ s.Early key := by
      rintro key ⟨e, hlookup, hstate⟩
      by_cases hkey : key = k
      · subst hkey
        rw [AList.lookup_erase] at hlookup
        contradiction
      · rw [AList.lookup_erase_ne hkey] at hlookup
        exact ⟨hkey, e, hlookup, hstate⟩
    refine h.run_same hn rfl rfl rfl rfl (fun key he => (hnot key he).2) ?_ ?_ (by simp) (by simp)
      ?_ ?_
    · intro key hkey
      by_cases heq : key = k
      · simp [heq]
      · simpa [heq] using hkey
    · exact fun key hkey => List.mem_append_left _ hkey
    · intro key hkey
      have heq : key = k := by simpa using hkey
      subst heq
      exact ⟨fun he => (hnot key he).1 rfl, Or.inl (by simp)⟩
    · rintro key he (ho | ⟨_, _, ho⟩ | ho)
      · contradiction
      · cases ho
        exact absurd rfl (hnot k he).1
      · contradiction

theorem getElem?_cancelLoop (loops : List Loop) (slot : Option Nat) (m : Nat) :
    (cancelLoop loops slot)[m]? =
      (loops[m]?).map fun l => if slot = some m then { l with cancelled := true } else l := by
  cases slot with
  | none => simp [cancelLoop]
  | some n => simp [cancelLoop, List.getElem?_modify]

theorem length_cancelLoop (loops : List Loop) (slot : Option Nat) :
    (cancelLoop loops slot).length = loops.length := by
  cases slot <;> simp [cancelLoop]

theorem AckInv.replace (h : AckInv s) (fresh : List Loop)
    (hn : s.handlers[n]? = some ⟨c, op :: rest⟩) (hop : op = .spawn2xx k ∨ op = .cancel2xx k)
    (hhandlers : s'.handlers = s.handlers.set n ⟨c, [] ++ rest⟩) (hqueue : s'.queue = s.queue)
    (hdialogs : s'.dialogs = s.dialogs) (htorn : s'.torn = s.torn)
    (hloops : s'.loops = cancelLoop s.loops (s.retransmits.lookup k) ++ fresh)
    (hslots : ∀ key, key ≠ k → s'.retransmits.lookup key = s.retransmits.lookup key)
    (hslot : ∀ m, s'.retransmits.lookup k = some m → ∃ l, s'.loops[m]? = some l ∧ l.key = k)
    (hfresh : ∀ l ∈ fresh, l.key = k ∧ l.phase = .running)
    (hknown : fresh ≠ [] → k ∈ s.dialogs ∨ k ∈ s.torn)
    (hcovered : s.Early k → Covered s' k) : AckInv s' := by
  -- a loop after the step is an old one, perhaps cancelled, or the fresh one
  have hold : ∀ (m : Nat) (l : Loop), s'.loops[m]? = some l →
      (∃ l₀, s.loops[m]? = some l₀ ∧ l.key = l₀.key ∧ l.phase = l₀.phase) ∨
        l.key = k ∧ l.phase = .running ∧ fresh ≠ [] := by
    intro m l hm
    rw [hloops, List.getElem?_append, length_cancelLoop] at hm
    split at hm
    · rw [getElem?_cancelLoop] at hm
      obtain ⟨l₀, hl₀, rfl⟩ := Option.map_eq_some_iff.mp hm
      refine Or.inl ⟨l₀, hl₀, ?_⟩
      split <;> exact ⟨rfl, rfl⟩
    · have hmem := List.mem_of_getElem? hm
      exact Or.inr ⟨(hfresh l hmem).1, (hfresh l hmem).2, List.ne_nil_of_mem hmem⟩
  have hkeep : ∀ (m : Nat) (l : Loop), s.loops[m]? = some l → s'.loops[m]? =
      some (if s.retransmits.lookup k = some m then { l with cancelled := true } else l) := by
    intro m l hm
    have hlt := (List.getElem?_eq_some_iff.mp hm).1
    rw [hloops, List.getElem?_append, length_cancelLoop, if_pos hlt, getElem?_cancelLoop, hm]
    rfl
  constructor
  · intro key m hm
    by_cases hkey : key = k
    · subst hkey
      exact hslot m hm
    · rw [hslots key hkey] at hm
      obtain ⟨l, hl, rfl⟩ := h.slots key m hm
      refine ⟨_, hkeep m l hl, ?_⟩
      split <;> rfl
  · rw [hhandlers, hdialogs, htorn]
    exact h.spawning.set hn (by simp)
  · intro m l hm
    rw [hdialogs, htorn]
    obtain ⟨l₀, hl₀, hkey, _⟩ | ⟨hkey, _, hne⟩ := hold m l hm
    · rw [hkey]
      exact h.spawned m l₀ hl₀
    · rw [hkey]
      exact hknown hne
  · intro m l hm hphase
    rw [early_iff hdialogs]
    obtain ⟨l₀, hl₀, hkey, hphase₀⟩ | ⟨_, hrunning, _⟩ := hold m l hm
    · rw [hkey]
      rw [hphase₀] at hphase
      exact h.failed m l₀ hl₀ hphase
    · simp [hrunning] at hphase
  · rw [hhandlers]
    exact h.confirms.set hn (by simp)
  · rw [hhandlers, htorn]
    simp only [early_iff hdialogs]
    exact h.cancels.set hn (by simp)
  · intro key he
    rw [early_iff hdialogs] at he
    by_cases hkey : key = k
    · subst hkey
      exact hcovered he
    · refine (h.covered key he).run hn hhandlers hqueue ?_ ?_ ?_
      · intro m l hm hl hlive
        -- the slot of `key` is not the one of `k`
        have hne : s.retransmits.lookup k ≠ some m := by
          intro hk
          obtain ⟨l₁, hl₁, hkey₁⟩ := h.slots key m hm
          obtain ⟨l₂, hl₂, hkey₂⟩ := h.slots k m hk
          obtain rfl := Option.mem_unique hl₁ hl₂
          exact hkey (hkey₁.symm.trans hkey₂)
        refine .loop ((hslots key hkey).trans hm) (hkeep m l hl) ?_
        rw [if_neg hne]
        exact hlive
      · intro m l hl hlkey hhand
        refine .handedIn (hkeep m l hl) ?_ ?_
        · split <;> exact hlkey
        · split <;> exact hhand
      · rintro (ho | ⟨_, _, ho⟩ | ho) <;> obtain rfl | rfl := hop <;> first | contradiction | skip
        cases ho
        exact absurd rfl hkey

theorem AckInv.spawn2xx (h : AckInv s)
    (hn : s.handlers[n]? = some ⟨c, .spawn2xx k :: rest⟩) (ok : Bool) :
    AckInv ((s.perform ok (.spawn2xx k)).1.withHandlers (s.handlers.set n ⟨c, [] ++ rest⟩)) := by
  have hloop : (cancelLoop s.loops (s.retransmits.lookup k) ++
      [⟨k, false, .running⟩])[s.loops.length]? = some ⟨k, false, .running⟩ := by
    rw [← length_cancelLoop s.loops (s.retransmits.lookup k), List.getElem?_concat_length]
  refine h.replace _ hn (Or.inl rfl) rfl rfl rfl rfl rfl ?_ ?_ (by simp)
    (fun _ => h.spawning.head hn k rfl) ?_
  · exact fun key hkey => AList.lookup_insert_ne hkey
  · intro m hm
    have hlookup : (s.retransmits.insert k s.loops.length).lookup k = some m := hm
    rw [AList.lookup_insert, Option.some.injEq] at hlookup
    subst hlookup
    exact ⟨_, hloop, rfl⟩
  · exact fun _ => .loop (AList.lookup_insert s.retransmits) hloop rfl

theorem AckInv.cancel2xx (h : AckInv s)
    (hn : s.handlers[n]? = some ⟨c, .cancel2xx k :: rest⟩) (ok : Bool) :
    AckInv ((s.perform ok (.cancel2xx k)).1.withHandlers (s.handlers.set n ⟨c, [] ++ rest⟩)) := by
  refine h.replace [] hn (Or.inr rfl) rfl rfl rfl rfl ?_ ?_ ?_ (by simp) (by simp) ?_
  · simp [perform]
  · exact fun key hkey => AList.lookup_erase_ne hkey
  · intro m hm
    have hlookup : (s.retransmits.erase k).lookup k = some m := hm
    rw [AList.lookup_erase] at hlookup
    contradiction
  · exact fun he => absurd he (h.cancels.head hn k rfl).1

theorem AckInv.run (h : AckInv s) (hlife : Life s) (hn : s.handlers[n]? = some ⟨c, op :: rest⟩)
    (ok : Bool) : AckInv (s.ran ok n c op rest) := by
  cases hop : op.isAckOp with
  | false => exact h.other hn hop ok
  | true =>
    cases op with
    | establish i => exact h.establish hlife hn ok
    | lookUp k r => exact h.lookUp hn ok
    | spawn2xx k => exact h.spawn2xx hn ok
    | confirm k => exact h.confirm hn ok
    | checkAck k => exact h.checkAck hn ok
    | remove k bye top => exact h.remove hn ok
    | cancel2xx k => exact h.cancel2xx hn ok
    | _ => contradiction

end Run

/-! ## the other steps -/

theorem AckInv.start (h : AckInv s) {callId : String} {ops : List Op}
    (hstart : s.start callId ops = some s')
    (hops : ∀ key, .spawn2xx key ∉ ops ∧ .cancel2xx key ∉ ops ∧
      (.confirm key ∈ ops → callId = key.1)) : AckInv s' := by
  obtain ⟨_, rfl⟩ := State.start_eq_some hstart
  refine ⟨h.slots, ?_, h.spawned, h.failed, ?_, ?_, ?_⟩
  · refine h.spawning.append ?_
    rintro _ ho key rfl
    exact absurd ho (hops key).1
  · refine h.confirms.append ?_
    rintro _ ho key rfl
    exact (hops key).2.2 ho
  · refine h.cancels.append ?_
    rintro _ ho key rfl
    exact absurd ho (hops key).2.1
  · intro key he
    have hpending : ∀ o, Script.Pending s.handlers o →
        Script.Pending (s.handlers ++ [⟨callId, ops⟩]) o := fun o ho => Script.pending_append.mpr (Or.inl ho)
    cases h.covered key he with
    | loop hslot hn hl => exact .loop hslot hn hl
    | handedIn hn hkey hl => exact .handedIn hn hkey hl
    | queued hq => exact .queued hq
    | checked hp => exact .checked (hpending _ hp)
    | removed hp => exact .removed (hpending _ hp)
    | unsent hp => exact .unsent (hpending _ hp)

theorem AckInv.of_same (h : AckInv s) (hdialogs : s'.dialogs = s.dialogs) (htorn : s'.torn = s.torn)
    (hloops : s'.loops = s.loops) (hslots : s'.retransmits = s.retransmits)
    (hhandlers : s'.handlers = s.handlers) (hcovered : ∀ key, Covered s key → Covered s' key) :
    AckInv s' := by
  constructor
  · rw [hslots, hloops]
    exact h.slots
  · rw [hhandlers, hdialogs, htorn]
    exact h.spawning
  · rw [hloops, hdialogs, htorn]
    exact h.spawned
  · rw [hloops]
    simp only [early_iff hdialogs]
    exact h.failed
  · rw [hhandlers]
    exact h.confirms
  · rw [hhandlers, htorn]
    simp only [early_iff hdialogs]
    exact h.cancels
  · intro key he
    rw [early_iff hdialogs] at he
    exact hcovered key (h.covered key he)

theorem Covered.mono (h : Covered s key) (hloops : s'.loops = s.loops)
    (hslots : s'.retransmits = s.retransmits) (hhandlers : s'.handlers = s.handlers)
    (hqueue : ∀ e ∈ s.queue, e ∈ s'.queue) : Covered s' key := by
  cases h with
  | loop hslot hn hl => exact .loop (by rw [hslots]; exact hslot) (by rw [hloops]; exact hn) hl
  | handedIn hn hkey hl => exact .handedIn (by rw [hloops]; exact hn) hkey hl
  | queued hq => exact .queued (hqueue _ hq)
  | checked hp => exact .checked (hhandlers ▸ hp)
  | removed hp => exact .removed (hhandlers ▸ hp)
  | unsent hp => exact .unsent (hhandlers ▸ hp)

theorem AckInv.internal (h : AckInv s) {e : InternalEvent} (he : s.queue[n]? = some e)
    (hstart : ({ s with queue := s.queue.eraseIdx n } : State).start e.callId e.ops = some s') :
    AckInv s' := by
  obtain ⟨hfree, rfl⟩ := State.start_eq_some hstart
  have hstarted : AckInv (s.withHandlers (s.handlers ++ [⟨e.callId, e.ops⟩])) := by
    refine h.start (if_pos hfree) fun key => ?_
    cases e <;> simp [InternalEvent.ops]
  refine hstarted.of_same rfl rfl rfl rfl rfl fun key hcovered => ?_
  cases hcovered with
  | loop hslot hn hl => exact .loop hslot hn hl
  | handedIn hn hkey hl => exact .handedIn hn hkey hl
  | queued hq =>
    by_cases heq : e = .ackTimeout key
    · subst heq
      exact .checked (Script.pending_append.mpr (Or.inr (by simp)))
    · refine .queued ?_
      obtain ⟨m, hm⟩ := List.getElem?_of_mem hq
      have hm : s.queue[m]? = some (.ackTimeout key) := hm
      have hne : m ≠ n := by
        rintro rfl
        exact heq (Option.mem_unique he hm)
      exact List.mem_eraseIdx_iff_getElem?.mpr ⟨m, hne, hm⟩
  | checked hp => exact .checked hp
  | removed hp => exact .removed hp
  | unsent hp => exact .unsent hp

/-- A loop moves on.  Either it covers its dialog as it did before, or something
else does. -/
theorem AckInv.setLoop (h : AckInv s) {l : Loop} (phase : LoopPhase)
    (hn : s.loops[n]? = some l) (hloops : s'.loops = s.loops.set n { l with phase })
    (hdialogs : s'.dialogs = s.dialogs) (htorn : s'.torn = s.torn)
    (hhandlers : s'.handlers = s.handlers) (hqueue : ∀ e ∈ s.queue, e ∈ s'.queue)
    (hslots : s'.retransmits = s.retransmits ∨ s'.retransmits = s.retransmits.erase l.key)
    (hfailed : phase = .leaving false ∨ phase = .releasing false → ¬ s.Early l.key)
    (hcovered : s.Early l.key → Covered s' l.key ∨ s'.retransmits = s.retransmits ∧
      (l.live = true → ({ l with phase } : Loop).live = true) ∧ l.handingIn = false) :
    AckInv s' := by
  have hlt := (List.getElem?_eq_some_iff.mp hn).1
  have hset : s'.loops[n]? = some { l with phase } := by
    rw [hloops, List.getElem?_set_self hlt]
  have hother : ∀ m, m ≠ n → s'.loops[m]? = s.loops[m]? := by
    intro m hm
    rw [hloops, List.getElem?_set_ne (Ne.symm hm)]
  -- every loop keeps its key
  have hback : ∀ (m : Nat) (l' : Loop), s'.loops[m]? = some l' →
      m = n ∧ l' = { l with phase } ∨ m ≠ n ∧ s.loops[m]? = some l' := by
    intro m l' hm
    by_cases hmn : m = n
    · subst hmn
      exact Or.inl ⟨rfl, (Option.mem_unique hset hm).symm⟩
    · exact Or.inr ⟨hmn, (hother m hmn).symm.trans hm⟩
  have hlookup : ∀ key m, s'.retransmits.lookup key = some m → s.retransmits.lookup key = some m := by
    intro key m hm
    obtain hs | hs := hslots
    · rwa [hs] at hm
    · rw [hs] at hm
      exact KeyMap.within_erase l.key s.retransmits key m hm
  constructor
  · intro key m hm
    obtain ⟨l', hl', hkey⟩ := h.slots key m (hlookup key m hm)
    by_cases hmn : m = n
    · subst hmn
      obtain rfl := Option.mem_unique hn hl'
      exact ⟨_, hset, hkey⟩
    · exact ⟨l', (hother m hmn).trans hl', hkey⟩
  · rw [hhandlers, hdialogs, htorn]
    exact h.spawning
  · intro m l' hm
    rw [hdialogs, htorn]
    obtain ⟨_, rfl⟩ | ⟨_, hm⟩ := hback m l' hm
    · exact h.spawned n l hn
    · exact h.spawned m l' hm
  · intro m l' hm hphase
    rw [early_iff hdialogs]
    obtain ⟨_, rfl⟩ | ⟨_, hm⟩ := hback m l' hm
    · exact hfailed hphase
    · exact h.failed m l' hm hphase
  · rw [hhandlers]
    exact h.confirms
  · rw [hhandlers, htorn]
    simp only [early_iff hdialogs]
    exact h.cancels
  · intro key he
    rw [early_iff hdialogs] at he
    cases h.covered key he with
    | @loop m l' hslot hm hl =>
      by_cases hkey : key = l.key
      · subst hkey
        obtain hcov | ⟨hsame, hlive, _⟩ := hcovered he
        · exact hcov
        · by_cases hmn : m = n
          · subst hmn
            obtain rfl := Option.mem_unique hn hm
            exact .loop (by rw [hsame]; exact hslot) hset (hlive hl)
          · exact .loop (by rw [hsame]; exact hslot) ((hother m hmn).trans hm) hl
      · have hmn : m ≠ n := by
          rintro rfl
          obtain ⟨l₁, hl₁, hkey₁⟩ := h.slots key m hslot
          obtain rfl := Option.mem_unique hn hl₁
          exact hkey hkey₁.symm
        refine .loop ?_ ((hother m hmn).trans hm) hl
        obtain hs | hs := hslots
        · rw [hs]
          exact hslot
        · rw [hs, AList.lookup_erase_ne hkey]
          exact hslot
    | @handedIn m l' hm hkey hl =>
      by_cases hmn : m = n
      · subst hmn
        obtain rfl := Option.mem_unique hn hm
        subst hkey
        obtain hcov | ⟨_, _, hhand⟩ := hcovered he
        · exact hcov
        · rw [hl] at hhand
          contradiction
      · exact .handedIn ((hother m hmn).trans hm) hkey hl
    | queued hq => exact .queued (hqueue _ hq)
    | checked hp => exact .checked (hhandlers ▸ hp)
    | removed hp => exact .removed (hhandlers ▸ hp)
    | unsent hp => exact .unsent (hhandlers ▸ hp)

theorem AckInv.step (h : AckInv s) (hlife : Life s) {a : Action} (hok : SendsSucceed s a)
    (hstep : s.step a = some s') : AckInv s' := by
  cases a with
  | invite i =>
    simp only [State.step] at hstep
    split at hstep
    · contradiction
    · have h' : AckInv { s with issued := i.key :: s.issued } :=
        h.of_same rfl rfl rfl rfl rfl fun _ hcov => hcov.mono rfl rfl rfl fun _ he => he
      refine h'.start hstep fun key => ?_
      obtain ⟨o, hops, ho⟩ := i.ops_eq
      rw [hops]
      obtain rfl | rfl | rfl | ⟨room, leg, _, rfl⟩ := ho <;> simp
  | refresh key r => exact h.start hstep (by simp)
  | ack key => exact h.start hstep (by simp)
  | bye key => exact h.start hstep (by simp)
  | internal n =>
    simp only [State.step] at hstep
    split at hstep
    · next e he => exact h.internal he hstep
    · contradiction
  | run n ok =>
    obtain ⟨c, op, rest, hn, _, rfl⟩ := State.step_run hstep
    exact h.run hlife hn ok
  | expire n | strike n =>
    simp only [State.step] at hstep
    split at hstep
    · obtain rfl := Option.some.inj hstep
      exact h.of_same rfl rfl rfl rfl rfl fun _ hcov =>
        hcov.mono rfl rfl rfl fun _ he => List.mem_append_left _ he
    · contradiction
  | retransmit n sent =>
    simp only [State.step] at hstep
    split at hstep
    · next key hn =>
      obtain rfl := Option.some.inj hstep
      cases sent with
      | true => exact h
      | false =>
        -- the condition: the dialog of this loop is not early
        have hnot : ¬ s.Early key := by
          rintro ⟨d, hd, hearly⟩
          exact hok _ hn d hd hearly
        exact h.setLoop (.leaving false) hn rfl rfl rfl rfl (fun _ he => he) (Or.inl rfl)
          (fun _ => hnot) fun he => absurd he hnot
    · contradiction
  | giveUp n =>
    simp only [State.step] at hstep
    split at hstep
    · next key hn =>
      obtain rfl := Option.some.inj hstep
      exact h.setLoop (.leaving true) hn rfl rfl rfl rfl (fun _ he => he) (Or.inl rfl) (by simp)
        fun _ => Or.inr ⟨rfl, fun _ => rfl, rfl⟩
    · contradiction
  | quit n =>
    simp only [State.step] at hstep
    split at hstep
    · next key hn =>
      obtain rfl := Option.some.inj hstep
      exact h.setLoop .done hn rfl rfl rfl rfl (fun _ he => he) (Or.inl rfl) (by simp)
        fun _ => Or.inr ⟨rfl, by simp [Loop.live], rfl⟩
    · contradiction
  | settle n =>
    simp only [State.step] at hstep
    split at hstep
    · next key cancelled timedOut hn =>
      obtain rfl := Option.some.inj hstep
      have hlt := (List.getElem?_eq_some_iff.mp hn).1
      cases cancelled with
      | true =>
        exact h.setLoop .done hn rfl rfl rfl rfl (fun _ he => he) (Or.inl rfl) (by simp)
          fun _ => Or.inr ⟨rfl, by simp [Loop.live], rfl⟩
      | false =>
        cases timedOut with
        | true =>
          refine h.setLoop (.releasing true) hn rfl rfl rfl rfl (fun _ he => he) (Or.inl rfl)
            (by simp) fun _ => Or.inl ?_
          exact .handedIn (List.getElem?_set_self hlt) rfl rfl
        | false =>
          have hnot : ¬ s.Early key := h.failed n _ hn (Or.inl rfl)
          exact h.setLoop (.releasing false) hn rfl rfl rfl rfl (fun _ he => he) (Or.inl rfl)
            (fun _ => hnot) fun he => absurd he hnot
    · contradiction
  | release n =>
    simp only [State.step] at hstep
    split at hstep
    · next key cancelled timedOut hn =>
      obtain rfl := Option.some.inj hstep
      have hlt := (List.getElem?_eq_some_iff.mp hn).1
      cases timedOut with
      | true =>
        refine h.setLoop .notifying hn rfl rfl rfl rfl (fun _ he => he) (Or.inr rfl) (by simp)
          fun _ => Or.inl ?_
        exact .handedIn (List.getElem?_set_self hlt) rfl rfl
      | false =>
        have hnot : ¬ s.Early key := h.failed n _ hn (Or.inr rfl)
        exact h.setLoop .done hn rfl rfl rfl rfl (fun _ he => he) (Or.inr rfl) (by simp)
          fun he => absurd he hnot
    · contradiction
  | notify n =>
    simp only [State.step] at hstep
    split at hstep
    · next key cancelled hn =>
      obtain rfl := Option.some.inj hstep
      refine h.setLoop .done hn rfl rfl rfl rfl (fun _ he => List.mem_append_left _ he)
        (Or.inl rfl) (by simp) fun _ => Or.inl ?_
      exact .queued (List.mem_append_right _ (List.mem_singleton.mpr rfl))
    · contradiction

/-! ## the result -/

theorem AckInv.restore (guarded : Bool) (records : List DialogRecord)
    (hrecords : ∀ r ∈ records, r.state ≠ .early) : AckInv (State.restore guarded records) := by
  have hnot : ∀ key, ¬ (State.restore guarded records).Early key := by
    have hfold : ∀ (records : List DialogRecord) (t : KeyMap DialogKey Dialog),
        (∀ r ∈ records, r.state ≠ .early) →
        (∀ key d, t.lookup key = some d → d.state ≠ .early) → ∀ key d,
        (records.foldl (fun t r => t.insert r.key ⟨r.state, r.rendezvous⟩) t).lookup key = some d →
          d.state ≠ .early := by
      intro records
      induction records with
      | nil => exact fun t _ ht => ht
      | cons r records ih =>
        intro t hrecords ht
        obtain ⟨hr, hrest⟩ := List.forall_mem_cons.mp hrecords
        refine ih _ hrest fun key d hd => ?_
        by_cases hkey : key = r.key
        · subst hkey
          rw [AList.lookup_insert, Option.some.injEq] at hd
          rwa [← hd]
        · rw [AList.lookup_insert_ne hkey] at hd
          exact ht key d hd
    rintro key ⟨d, hd, hearly⟩
    exact hfold records ∅ hrecords (by simp) key d hd hearly
  constructor
  · simp [State.restore]
  · simp [State.restore, Script.Each]
  · simp [State.restore]
  · simp [State.restore]
  · simp [State.restore, Script.Each]
  · simp [State.restore, Script.Each]
  · exact fun key he => absurd he (hnot key)

/-- **No call is left unacknowledged.**  In every run that starts with no early
dialog and in which no 2xx of an early dialog fails to be sent again, every
early dialog has a live loop, or the event that will end its call is under way. -/
theorem unacked_covered (guarded : Bool) (records : List DialogRecord)
    (hrecords : ∀ r ∈ records, r.state ≠ .early) (acts : List Action) (s : State)
    (hexec : exec State.step (State.restore guarded records) acts = some s)
    (hsent : Meets State.step SendsSucceed (State.restore guarded records) acts) : AckAwaited s := by
  have h : Life s ∧ AckInv s := by
    refine exec_invariant_of_meets (I := fun s => Life s ∧ AckInv s) ?_ hexec hsent
      ⟨Life.restore guarded records, AckInv.restore guarded records hrecords⟩
    rintro s a s' ⟨hlife, hack⟩ hok hstep
    exact ⟨hlife.step hstep, hack.step hlife hok hstep⟩
  exact h.2.covered

/-- A call whose 2xx has been sent. -/
def unackedCall : List Action :=
  .invite ⟨("a", "1", "2"), none, none, none, .rendezvous, false⟩ :: Action.runs 0 3

/-- The 2xx is sent twice more, and then the loop asks for the call to be ended. -/
theorem unacked_covered_timeout : ∃ s, exec State.step (State.restore false [])
        (unackedCall ++ ([.retransmit 0 true, .retransmit 0 true, .giveUp 0, .settle 0, .release 0,
          .notify 0] : List Action)) = some s ∧
      s.dialogs.lookup ("a", "1", "2") = some ⟨.early, none⟩ ∧
      s.queue = [.ackTimeout ("a", "1", "2")] ∧ AckAwaited s := by
  have hrun : (exec State.step (State.restore false [])
      (unackedCall ++ ([.retransmit 0 true, .retransmit 0 true, .giveUp 0, .settle 0, .release 0,
        .notify 0] : List Action))).map (fun s => (s.dialogs.lookup ("a", "1", "2"), s.queue)) =
      some (some ⟨.early, none⟩, [.ackTimeout ("a", "1", "2")]) := by
    decide +kernel
  obtain ⟨s, hexec, hs⟩ := Option.map_eq_some_iff.mp hrun
  obtain ⟨hdialog, hqueue⟩ := Prod.mk.inj hs
  exact ⟨s, hexec, hdialog, hqueue, unacked_covered false [] (by simp) _ s hexec (by decide +kernel)⟩

/-- A loop whose send fails clears its slot and says nothing: the dialog stays
early, and nothing is left that could end it. -/
theorem unacked_leaks :
    ¬ ∀ (guarded : Bool) (records : List DialogRecord) (acts : List Action) (s : State),
      exec State.step (State.restore guarded records) acts = some s → AckAwaited s := by
  intro h
  have hrun : (exec State.step (State.restore false [])
      (unackedCall ++ ([.retransmit 0 false, .settle 0, .release 0] : List Action))).map
      (fun s => (s.dialogs.lookup ("a", "1", "2"), s.retransmits.lookup ("a", "1", "2"),
        s.loops, s.queue, decide (Script.Quiet s.handlers))) =
      some (some ⟨.early, none⟩, none, [⟨("a", "1", "2"), false, .done⟩], [], true) := by
    decide +kernel
  obtain ⟨s, hexec, hs⟩ := Option.map_eq_some_iff.mp hrun
  simp only [Prod.mk.injEq, decide_eq_true_eq] at hs
  obtain ⟨hdialog, hslot, hloops, hqueue, hquiet⟩ := hs
  cases h false [] _ s hexec ("a", "1", "2") ⟨_, hdialog, rfl⟩ with
  | loop hsome => simp [hslot] at hsome
  | @handedIn n l hn hkey hl =>
    rw [hloops, List.getElem?_singleton] at hn
    split at hn
    · obtain rfl := Option.some.inj hn
      contradiction
    · contradiction
  | queued hq => simp [hqueue] at hq
  | checked hp => exact hquiet.not_pending hp
  | removed hp => exact hquiet.not_pending hp
  | unsent hp => exact hquiet.not_pending hp

end SmithsNet.Uas.Calls
