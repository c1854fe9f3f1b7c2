import SmithsNet.Txn.DriverAccounts

/-!
# SmithsNet.Txn.ClientSends

What a client INVITE transaction puts on the wire, in every run of the driver.

The machine sends the request it was made for and the ACKs it builds of that
request and of the responses it is fed.  `Driver.Writes` keeps track of one
entry of the table: its machine, its send queue, and the steps in flight on it.
No step of the driver, on this entry or on another, adds anything else
(`Driver.writes_moves`).
-/

namespace SmithsNet.Txn

open Lib

/-- Every ACK of a final response is a message of the kind. -/
def AcksMeet (p : Bytes → Prop) : Prop :=
  ∀ invite response ack, buildNonOkAck invite response = some ack → p ack

namespace ClientInviteTxn

/-- The request and the ACK kept are messages of the kind. -/
structure Writes (t : ClientInviteTxn) (p : Bytes → Prop) : Prop where
  invite : p t.invite
  ack : ∀ ack, t.ackForNonOk = some ack → p ack

variable {p : Bytes → Prop} {t : ClientInviteTxn}

theorem writes_enterCompletedNonOk (h : t.Writes p) (hack : AcksMeet p) (status : Nat) (final : Bytes) :
    (t.enterCompletedNonOk status final).1.Writes p ∧
      ∀ b, .sendToPeer b ∈ (t.enterCompletedNonOk status final).2 → p b := by
  refine ⟨⟨h.invite, fun ack h => hack _ _ _ h⟩, fun b hb => ?_⟩
  simp only [enterCompletedNonOk, List.mem_append, List.mem_cons, List.not_mem_nil, or_false,
    Option.mem_toList, Option.map_eq_some_iff, reduceCtorEq, false_or] at hb
  obtain ⟨ack, hsome, heq⟩ | hb := hb
  · cases heq
    exact hack _ _ _ hsome
  · cases ht : t.reliable <;> simp [ht] at hb

theorem writes_onEvent (h : t.Writes p) (hack : AcksMeet p) (e : TransactionEvent) :
    (t.onEvent e).1.Writes p ∧ ∀ b, .sendToPeer b ∈ (t.onEvent e).2 → p b := by
  have hinvite := h.invite
  have hkept := h.ack
  have hbypass (status : Nat) (final : Bytes) : (t.enterTerminatedOn2xx status final).1.Writes p := ⟨hinvite, hkept⟩
  fun_cases onEvent t e with
  | case5 | case9 => exact writes_enterCompletedNonOk h hack _ _
  | case4 | case8 => exact ⟨hbypass _ _, by simp [enterTerminatedOn2xx]⟩
  | _ => exact ⟨⟨hinvite, hkept⟩, by simp_all⟩

end ClientInviteTxn

/-! ## what a step of the driver is -/

/-- The steps call for no message. -/
def Silent (ops : List Op) : Prop := ∀ b, .perform (.sendToPeer b) ∉ ops

namespace Driver

/-- A new transaction is registered and begun; an operation begins on one of the table; only
tasks move on; or an operation takes its next step. -/
inductive Moves (s : Driver) : Driver → Prop
  | registers (fsm : Machine) (sentBy : Option Text) (key : TransactionKey) {ops : List Op} (hops : Silent ops) :
      Moves s ((s.register fsm sentBy).begin key s.entries.length ops none)
  | begins (tasks : List TimerTask) {key : TransactionKey} {y : Nat} (hy : s.txns.lookup key = some y) {ops : List Op}
      (hops : Silent ops) (armedFor : Option Nat) : Moves s ({ s with tasks }.begin key y ops armedFor)
  | tasks (tasks : List TimerTask) : Moves s { s with tasks }
  | runs {i : Nat} {f : Frame} {op : Op} {rest : List Op} {e : Entry} (hf : s.frames[i]? = some f)
      (hops : f.ops = op :: rest) (he : s.entries[f.entry]? = some e) :
      Moves s { (s.perform f.key f.entry e op).1 with
        frames := s.frames.set i { f with ops := (s.perform f.key f.entry e op).2 ++ rest } }

variable {s s' : Driver}

theorem moves_deliver (key : TransactionKey) (ev : TransactionEvent) : s.Moves (s.deliver key ev) := by
  unfold deliver
  split
  · next y hy => exact .begins s.tasks hy (by simp [Silent]) none
  · exact .tasks s.tasks

theorem step_moves {a : DriverAction} (hstep : s.step a = some s') : s.Moves s' := by
  cases a with
  | startClient txn =>
    obtain rfl := Option.some.inj hstep
    exact .registers _ _ _ (by simp [Silent])
  | startServer txn sentBy =>
    obtain rfl := Option.some.inj hstep
    exact .registers _ _ _ (by simp [Silent])
  | deliverResponse key status bytes =>
    obtain rfl := Option.some.inj hstep
    exact moves_deliver key _
  | deliverRequest key method bytes =>
    simp only [step] at hstep
    split at hstep
    · next y hy =>
      split at hstep
      · split at hstep
        · obtain rfl := Option.some.inj hstep
          exact .begins s.tasks hy (by simp [Silent]) none
        · exact Option.some.inj hstep ▸ .tasks s.tasks
      · contradiction
    · exact Option.some.inj hstep ▸ .tasks s.tasks
  | sendResponse key status bytes =>
    obtain rfl := Option.some.inj hstep
    exact moves_deliver key _
  | wake n =>
    simp only [step] at hstep
    split at hstep
    · exact Option.some.inj hstep ▸ .tasks _
    · contradiction
  | quit n =>
    simp only [step] at hstep
    split at hstep
    · split at hstep
      · split at hstep
        · exact Option.some.inj hstep ▸ .tasks _
        · contradiction
      · contradiction
    · contradiction
  | fire n =>
    simp only [step] at hstep
    split at hstep
    · split at hstep
      · next y hy =>
        obtain rfl := Option.some.inj hstep
        exact .begins _ hy (by simp [Silent]) _
      · exact Option.some.inj hstep ▸ .tasks _
    · contradiction
  | run i =>
    simp only [step] at hstep
    split at hstep
    · next key y op rest armedFor hf =>
      split at hstep
      · next e he =>
        obtain rfl := Option.some.inj hstep
        exact .runs hf rfl he
      · contradiction
    · contradiction

/-! ## what is in flight is on an entry of the table -/

/-- Keys and operations name entries that are there. -/
structure Known (s : Driver) : Prop where
  txns : ∀ key y, s.txns.lookup key = some y → y < s.entries.length
  frames : ∀ f ∈ s.frames, f.entry < s.entries.length

theorem known_new (reliable : Bool) : (Driver.new reliable).Known := ⟨nofun, nofun⟩

theorem txns_perform (s : Driver) (key : TransactionKey) (y : Nat) (e : Entry) (op : Op) :
    KeyMap.Within (s.perform key y e op).1.txns s.txns := by
  cases op with
  | removeEntry =>
    cases hlookup : s.txns.lookup key with
    | none => simpa only [perform, hlookup] using KeyMap.Within.refl s.txns
    | some _ => simpa only [perform, hlookup] using KeyMap.within_erase key s.txns
  | perform a => cases a <;> exact KeyMap.Within.refl s.txns
  | _ => exact KeyMap.Within.refl s.txns

theorem entries_perform (s : Driver) (key : TransactionKey) (y : Nat) (e : Entry) (op : Op) :
    (s.perform key y e op).1.entries.length = s.entries.length := by
  cases op with
  | removeEntry => cases hlookup : s.txns.lookup key <;> simp only [perform, hlookup]
  | perform a => cases a <;> simp [perform, setEntry]
  | _ => simp [perform, setEntry]

theorem known_begin (h : s.Known) (key : TransactionKey) {y : Nat} (hy : y < s.entries.length) (ops : List Op)
    (armedFor : Option Nat) : (s.begin key y ops armedFor).Known := by
  refine ⟨h.txns, fun f hf => ?_⟩
  obtain hf | hf := List.mem_append.mp hf
  · exact h.frames f hf
  · exact List.mem_singleton.mp hf ▸ hy

theorem known_register (h : s.Known) (fsm : Machine) (sentBy : Option Text) : (s.register fsm sentBy).Known := by
  have hlen : (s.register fsm sentBy).entries.length = s.entries.length + 1 := by simp [register]
  refine ⟨fun key y hy => ?_, fun f hf => ?_⟩
  · rw [hlen]
    by_cases hkey : key = Transaction.key (Transaction.setReliable fsm s.reliable)
    · rw [hkey, register, AList.lookup_insert] at hy
      cases hy
      exact Nat.lt_succ_self _
    · rw [register, AList.lookup_insert_ne hkey] at hy
      exact Nat.lt_succ_of_lt (h.txns key y hy)
  · rw [hlen]
    exact Nat.lt_succ_of_lt (h.frames f hf)

theorem known_moves (h : s.Known) (hmove : s.Moves s') : s'.Known := by
  cases hmove with
  | registers fsm sentBy key hops =>
    refine known_begin (known_register h fsm sentBy) key ?_ _ _
    simp [register]
  | begins tasks hy hops armedFor =>
    have hknown : Known { s with tasks } := ⟨h.txns, h.frames⟩
    exact known_begin hknown _ (h.txns _ _ hy) _ _
  | tasks tasks => exact ⟨h.txns, h.frames⟩
  | runs hf hops he =>
    refine ⟨fun key y hy => ?_, fun g hg => ?_⟩
    · exact (entries_perform ..).symm ▸ h.txns key y (txns_perform _ _ _ _ _ key y hy)
    · refine (entries_perform ..).symm ▸ ?_
      obtain hg | rfl := List.mem_or_eq_of_mem_set hg
      · exact h.frames g hg
      · exact (List.getElem?_eq_some_iff.mp he).1

end Driver

/-! ## one entry of the table -/

/-- A client INVITE transaction of the kind, with nothing else on its send queue. -/
structure Entry.Writes (e : Entry) (p : Bytes → Prop) : Prop where
  machine : ∃ t, e.fsm = .clientInvite t ∧ t.Writes p
  sent : ∀ b ∈ e.sent, p b

/-- Of entry `x`: itself, and what is in flight on it. -/
structure Driver.Writes (s : Driver) (p : Bytes → Prop) (x : Nat) : Prop where
  entry : ∃ e, s.entries[x]? = some e ∧ e.Writes p
  inFlight : ∀ f ∈ s.frames, f.entry = x → ∀ b, .perform (.sendToPeer b) ∈ f.ops → p b

namespace Driver

variable {p : Bytes → Prop} {s s' : Driver} {x : Nat}

theorem writes_perform (hack : AcksMeet p) (key : TransactionKey) {y : Nat} {e : Entry} (he : s.entries[y]? = some e)
    (op : Op) : ∃ e', (s.perform key y e op).1.entries = s.entries.set y e' ∧
      (e.Writes p → (∀ b, op = .perform (.sendToPeer b) → p b) →
        e'.Writes p ∧ ∀ b, .perform (.sendToPeer b) ∈ (s.perform key y e op).2 → p b) := by
  have same : s.entries = s.entries.set y e := set_self he
  cases op with
  | event ev =>
    refine ⟨{ e with fsm := (Transaction.onEvent e.fsm ev).1 }, rfl, fun h _ => ?_⟩
    obtain ⟨t, hfsm, ht⟩ := h.machine
    obtain ⟨hnext, hsends⟩ := ClientInviteTxn.writes_onEvent ht hack ev
    refine ⟨⟨⟨(t.onEvent ev).1, ?_, hnext⟩, h.sent⟩, fun b hb => hsends b ?_⟩
    · rw [hfsm]
      rfl
    · obtain ⟨a, ha, heq⟩ := List.mem_map.mp hb
      rw [hfsm] at ha
      cases heq
      simpa [Transaction.onEvent, Machine.onEvent] using ha
  | perform a =>
    cases a with
    | sendToPeer bytes =>
      refine ⟨{ e with sent := e.sent ++ [bytes] }, rfl, fun h hb => ⟨⟨h.machine, ?_⟩, by simp [perform]⟩⟩
      intro b hmem
      obtain hmem | hmem := List.mem_append.mp hmem
      · exact h.sent b hmem
      · exact List.mem_singleton.mp hmem ▸ hb bytes rfl
    | deliverResponseToTu status bytes => exact ⟨_, rfl, fun h _ => ⟨⟨h.machine, h.sent⟩, by simp [perform]⟩⟩
    | armTimer id d => exact ⟨e, same, fun h _ => ⟨h, by simp [perform]⟩⟩
    | cancelTimer id => exact ⟨_, rfl, fun h _ => ⟨⟨h.machine, h.sent⟩, by simp [perform]⟩⟩
    | terminated => exact ⟨e, same, fun h _ => ⟨h, by simp [perform]⟩⟩
  | removeEntry =>
    refine ⟨e, ?_, fun h _ => ⟨h, fun b => ?_⟩⟩
    · cases hlookup : s.txns.lookup key with
      | none => simpa only [perform, hlookup] using same
      | some _ => simpa only [perform, hlookup] using same
    · cases hlookup : s.txns.lookup key with
      | none => simp [perform, hlookup]
      | some _ => cases hrole : key.role <;> simp [perform, hlookup, hrole]
  | incGauge | decGauge => exact ⟨e, same, fun h _ => ⟨h, by simp [perform]⟩⟩
  | track id task | untrack id | cancelToken | abortTimers | notify =>
    exact ⟨_, rfl, fun h _ => ⟨⟨h.machine, h.sent⟩, by simp [perform]⟩⟩

theorem writes_begin (h : s.Writes p x) (key : TransactionKey) (y : Nat) {ops : List Op} (armedFor : Option Nat)
    (hops : Silent ops) : (s.begin key y ops armedFor).Writes p x := by
  refine ⟨h.entry, fun f hf hx b hb => ?_⟩
  obtain hf | hf := List.mem_append.mp hf
  · exact h.inFlight f hf hx b hb
  · obtain rfl := List.mem_singleton.mp hf
    exact absurd hb (hops b)

theorem writes_run (h : s.Writes p x) (hack : AcksMeet p) {i : Nat} {f : Frame} {op : Op} {rest : List Op} {e : Entry}
    (hf : s.frames[i]? = some f) (hops : f.ops = op :: rest) (he : s.entries[f.entry]? = some e) :
    Writes { (s.perform f.key f.entry e op).1 with
      frames := s.frames.set i { f with ops := (s.perform f.key f.entry e op).2 ++ rest } }
      p x := by
  obtain ⟨e', hentries, hstep⟩ := writes_perform hack f.key he op
  have hmem := List.mem_of_getElem? hf
  obtain ⟨ex, hex, hwrites⟩ := h.entry
  by_cases hx : f.entry = x
  · subst hx
    obtain rfl : e = ex := Option.mem_unique he hex
    have hpending := h.inFlight f hmem rfl
    rw [hops] at hpending
    obtain ⟨hkeep, hcalls⟩ := hstep hwrites fun b hb => hpending b (hb ▸ List.mem_cons_self)
    refine ⟨⟨e', ?_, hkeep⟩, fun g hg hgx b hb => ?_⟩
    · rw [hentries]
      exact List.getElem?_set_self (List.getElem?_eq_some_iff.mp he).1
    · obtain hg | rfl := List.mem_or_eq_of_mem_set hg
      · exact h.inFlight g hg hgx b hb
      · obtain hb | hb := List.mem_append.mp hb
        · exact hcalls b hb
        · exact hpending b (List.mem_cons_of_mem _ hb)
  · refine ⟨⟨ex, ?_, hwrites⟩, fun g hg hgx b hb => ?_⟩
    · rw [hentries, List.getElem?_set_ne hx, hex]
    · obtain hg | rfl := List.mem_or_eq_of_mem_set hg
      · exact h.inFlight g hg hgx b hb
      · exact absurd hgx hx

/-- **No step of the driver makes the entry write anything else.** -/
theorem writes_moves (h : s.Writes p x) (hack : AcksMeet p) (hmove : s.Moves s') : s'.Writes p x := by
  cases hmove with
  | registers fsm sentBy key hops =>
    have hregister : (s.register fsm sentBy).Writes p x := by
      obtain ⟨e, he, hwrites⟩ := h.entry
      refine ⟨⟨e, ?_, hwrites⟩, h.inFlight⟩
      exact (List.getElem?_append_left (List.getElem?_eq_some_iff.mp he).1).trans he
    exact writes_begin hregister key _ none hops
  | begins tasks hy hops armedFor =>
    have htasks : Writes { s with tasks } p x := ⟨h.entry, h.inFlight⟩
    exact writes_begin htasks _ _ armedFor hops
  | tasks tasks => exact ⟨h.entry, h.inFlight⟩
  | runs hf hops he => exact writes_run h hack hf hops he

/-- A client INVITE transaction that is started writes its request, and is tracked from there. -/
theorem writes_startClient (h : s.Known) (branch : String) {request : Bytes} (hrequest : p request)
    (hstep : s.step (.startClient (.invite branch request)) = some s') : s'.Writes p s.entries.length := by
  obtain rfl := Option.some.inj hstep
  have hregister : (s.register (NewClient.invite branch request).machine none).Writes p s.entries.length := by
    refine ⟨⟨_, List.getElem?_concat_length, ⟨⟨_, rfl, hrequest, nofun⟩, nofun⟩⟩, fun f hf hx => ?_⟩
    exact absurd (hx ▸ h.frames f hf) (Nat.lt_irrefl _)
  exact writes_begin hregister _ _ none (by simp [Silent])

end Driver

end SmithsNet.Txn
