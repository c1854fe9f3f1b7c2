import SmithsNet.Uas.Calls

/-!
# SmithsNet.Uas.SessionTimers

Session timers (RFC 4028) of the UAS over whole runs.  An arming is named by a
generation, and the event of an arming that has run out carries it; the handler
of the event compares it with the table, so that a refresh that came in between
is noticed.  The generation counts up from the entry in the table, and starts
again at 1 when a refresh without a timer has removed the entry.

`session_timer_safe`: no event of an older arming ends a call, as long as no
arming uses a generation that an event still under way carries.
`stale_expiry_ends_call`: the generation that starts again meets such an event.
-/

namespace SmithsNet.Uas.Calls

open Lib SmithsNet.Core State
open Calls.Action (runs)

/-- The event of an arming with this key and generation. -/
def InternalEvent.carries (key : DialogKey) (generation : UInt64) : InternalEvent → Bool
  | sessionExpired k g _ => decide (k = key ∧ g = generation)
  | _ => false

/-- Its handling, before the comparison. -/
def Op.carries (key : DialogKey) (generation : UInt64) : Op → Bool
  | checkExpired k g _ => decide (k = key ∧ g = generation)
  | _ => false

/-- No event under way carries the generation. -/
def State.Unused (s : State) (key : DialogKey) (generation : UInt64) : Prop :=
  (∀ e ∈ s.queue, e.carries key generation = false) ∧
    ∀ h ∈ s.handlers, ∀ op ∈ h.ops, op.carries key generation = false

instance (s : State) (key : DialogKey) (generation : UInt64) : Decidable (s.Unused key generation) :=
  inferInstanceAs (Decidable (_ ∧ _))

/-- The arming an operation makes. -/
def Op.arming : Op → Option (DialogKey × UInt64)
  | armSession key generation => some (key, generation)
  | _ => none

/-- Timers are armed with generations that are not in use. -/
def GenerationsUnused (s : State) (a : Action) : Prop :=
  ∀ o ∈ s.opOf a, ∀ p ∈ o.1.arming, s.Unused p.1 p.2

instance (s : State) (a : Action) : Decidable (GenerationsUnused s a) :=
  inferInstanceAs (Decidable (∀ _ ∈ _, ∀ _ ∈ _, _))

/-- Whenever a call is ended for an expired session, the arming that ran out is
the one in the table: it has been neither refreshed nor cancelled. -/
def ExpiriesCurrent (s : State) : Prop := ∀ p ∈ s.expired, p.1 = p.2

/-! ## the invariant -/

/-- An event of this arming is under way. -/
def State.Outstanding (s : State) (key : DialogKey) (generation : UInt64) (arming : Nat) : Prop :=
  .sessionExpired key generation arming ∈ s.queue ∨
    Script.Pending s.handlers (.checkExpired key generation arming)

/-- A task that sleeps is the table's; an event under way that carries the
table's generation is of the table's arming. -/
structure TimerInv (s : State) : Prop where
  live : ∀ (n : Nat) (a : Arming), s.armings[n]? = some a → a.live = true →
    s.sessionTimers.lookup a.key = some ⟨a.generation, n⟩
  current : ∀ key generation arming t, s.Outstanding key generation arming →
    s.sessionTimers.lookup key = some t → t.generation = generation → t.arming = arming
  expired : ExpiriesCurrent s

variable {s s' : State}

theorem TimerInv.of_same (h : TimerInv s) (htimers : s'.sessionTimers = s.sessionTimers)
    (harmings : s'.armings = s.armings) (hexpired : s'.expired = s.expired)
    (hout : ∀ key generation arming, s'.Outstanding key generation arming →
      s.Outstanding key generation arming) : TimerInv s' := by
  constructor
  · rw [harmings, htimers]
    exact h.live
  · intro key generation arming t ho
    rw [htimers]
    exact h.current key generation arming t (hout key generation arming ho)
  · unfold ExpiriesCurrent
    rw [hexpired]
    exact h.expired

theorem TimerInv.start (h : TimerInv s) {callId : String} {ops : List Op}
    (hops : ∀ key generation arming, .checkExpired key generation arming ∉ ops)
    (hstart : s.start callId ops = some s') : TimerInv s' := by
  obtain ⟨-, rfl⟩ := State.start_eq_some hstart
  refine h.of_same rfl rfl rfl fun key generation arming ho => ?_
  obtain ho | ho := ho
  · exact Or.inl ho
  · obtain ho | ho := Script.pending_append.mp ho
    · exact Or.inr ho
    · exact absurd ho (hops key generation arming)

theorem getElem?_cancelArming {armings : List Arming} {n : Option Nat} {m : Nat} {a : Arming}
    (h : (cancelArming armings n)[m]? = some a) (ha : a.live = true) :
    n ≠ some m ∧ armings[m]? = some a := by
  cases n with
  | none => exact ⟨by simp, h⟩
  | some n =>
    simp only [cancelArming, Option.elim_some, List.getElem?_modify] at h
    obtain ⟨a₀, ha₀, rfl⟩ := Option.map_eq_some_iff.mp h
    by_cases hnm : n = m
    · simp [hnm] at ha
    · simp only [hnm, if_false]
      exact ⟨by simpa using hnm, ha₀⟩

theorem length_cancelArming (armings : List Arming) (n : Option Nat) :
    (cancelArming armings n).length = armings.length := by
  cases n <;> simp [cancelArming]

theorem TimerInv.live_ne (h : TimerInv s) {key : DialogKey} {m : Nat} {a : Arming}
    (ha : (cancelArming s.armings
      ((s.sessionTimers.lookup key).map SessionTimer.arming))[m]? = some a)
    (hlive : a.live = true) :
    a.key ≠ key ∧ s.sessionTimers.lookup a.key = some ⟨a.generation, m⟩ := by
  obtain ⟨hne, ha⟩ := getElem?_cancelArming ha hlive
  have hlookup := h.live m a ha hlive
  refine ⟨fun hkey => ?_, hlookup⟩
  rw [hkey] at hlookup
  rw [hlookup] at hne
  exact hne rfl

section Run

variable {n : Nat} {c : String} {rest : List Op}

/-- A timer is armed: the old arming is cancelled, and no event under way can
be taken for one of the new. -/
theorem TimerInv.armSession (h : TimerInv s) {key : DialogKey} {generation : UInt64}
    (hn : s.handlers[n]? = some ⟨c, .armSession key generation :: rest⟩)
    (hunused : s.Unused key generation) (ok : Bool) :
    TimerInv ((s.perform ok (.armSession key generation)).1.withHandlers
      (s.handlers.set n ⟨c, [] ++ rest⟩)) := by
  constructor
  · intro m a ha hlive
    simp only [State.withHandlers_armings, State.withHandlers_sessionTimers, perform] at ha ⊢
    rw [List.getElem?_append, length_cancelArming] at ha
    split at ha
    · obtain ⟨hkey, hlookup⟩ := h.live_ne ha hlive
      rwa [AList.lookup_insert_ne hkey]
    · next hge =>
      rw [List.getElem?_singleton] at ha
      split at ha
      · next hzero =>
        obtain rfl := Option.some.inj ha
        have hm : m = s.armings.length := by omega
        rw [hm]
        exact AList.lookup_insert s.sessionTimers
      · contradiction
  · intro key' generation' arming t ho hlookup hgen
    have ho' : s.Outstanding key' generation' arming := by
      obtain ho | ho := ho
      · exact Or.inl ho
      · obtain ho | ho := Script.pending_set hn ho
        · exact Or.inr ho
        · contradiction
    simp only [State.withHandlers_sessionTimers, perform] at hlookup
    by_cases hkey : key' = key
    · -- the condition: no event carries this generation
      rw [hkey, AList.lookup_insert, Option.some.injEq] at hlookup
      subst hlookup hkey hgen
      obtain ho | ⟨s₁, hs₁, ho⟩ := ho'
      · have hcarries := hunused.1 _ ho
        simp [InternalEvent.carries] at hcarries
      · have hcarries := hunused.2 s₁ hs₁ _ ho
        simp [Op.carries] at hcarries
    · rw [AList.lookup_insert_ne hkey] at hlookup
      exact h.current key' generation' arming t ho' hlookup hgen
  · exact h.expired

theorem TimerInv.cancelSession (h : TimerInv s) {key : DialogKey}
    (hn : s.handlers[n]? = some ⟨c, .cancelSession key :: rest⟩) (ok : Bool) :
    TimerInv ((s.perform ok (.cancelSession key)).1.withHandlers
      (s.handlers.set n ⟨c, [] ++ rest⟩)) := by
  constructor
  · intro m a ha hlive
    obtain ⟨hkey, hlookup⟩ := h.live_ne ha hlive
    exact (AList.lookup_erase_ne hkey).trans hlookup
  · intro key' generation arming t ho hlookup hgen
    refine h.current key' generation arming t ?_
      (KeyMap.within_erase key s.sessionTimers key' t hlookup) hgen
    obtain ho | ho := ho
    · exact Or.inl ho
    · obtain ho | ho := Script.pending_set hn ho
      · exact Or.inr ho
      · contradiction
  · exact h.expired

theorem TimerInv.checkExpired (h : TimerInv s) {key : DialogKey} {generation : UInt64} {arming : Nat}
    (hn : s.handlers[n]? = some ⟨c, .checkExpired key generation arming :: rest⟩) (ok : Bool) :
    TimerInv (s.ran ok n c (.checkExpired key generation arming) rest) := by
  have hout : ∀ key' generation' arming' (hs : List Handler) (ops : List Op),
      .checkExpired key' generation' arming' ∉ ops → hs = s.handlers.set n ⟨c, ops ++ rest⟩ →
      (.sessionExpired key' generation' arming' ∈ s.queue ∨
        Script.Pending hs (.checkExpired key' generation' arming')) →
      s.Outstanding key' generation' arming' := by
    rintro key' generation' arming' hs ops hops rfl (ho | ho)
    · exact Or.inl ho
    · obtain ho | ho := Script.pending_set hn ho
      · exact Or.inr ho
      · exact absurd ho hops
  simp only [State.ran, perform]
  cases ht : s.sessionTimers.lookup key with
  | none => exact h.of_same rfl rfl rfl fun _ _ _ ho => hout _ _ _ _ [] (by simp) rfl ho
  | some t =>
    by_cases hgen : t.generation = generation
    · simp only [hgen, if_true]
      refine ⟨h.live, ?_, ?_⟩
      · intro key' generation' arming' t' ho hlookup
        exact h.current key' generation' arming' t'
          (hout _ _ _ _ [.remove key true true] (by simp) rfl ho) hlookup
      · intro p hp
        obtain hp | hp := List.mem_append.mp hp
        · exact h.expired p hp
        · obtain rfl := List.mem_singleton.mp hp
          exact (h.current key generation arming t (Or.inr (Script.pending_head hn)) ht hgen).symm
    · simp only [hgen, if_false]
      exact h.of_same rfl rfl rfl fun _ _ _ ho => hout _ _ _ _ [] (by simp) rfl ho

/-- The operations that have to do with session timers. -/
def Op.isTimerOp : Op → Bool
  | armSession _ _ | cancelSession _ | checkExpired _ _ _ => true
  | _ => false

theorem perform_timers (s : State) (ok : Bool) {op : Op} (hop : op.isTimerOp = false) :
    (s.perform ok op).1.sessionTimers = s.sessionTimers ∧
      (s.perform ok op).1.armings = s.armings ∧ (s.perform ok op).1.expired = s.expired ∧
      (s.perform ok op).1.queue = s.queue ∧
      ∀ key generation arming, .checkExpired key generation arming ∉ (s.perform ok op).2 := by
  cases op <;> first | contradiction | skip
  all_goals simp only [perform]
  all_goals try split
  all_goals try split
  all_goals
    refine ⟨?_, ?_, ?_, ?_, ?_⟩ <;>
      simp

theorem TimerInv.run (h : TimerInv s) {op : Op} (hn : s.handlers[n]? = some ⟨c, op :: rest⟩)
    (hunused : ∀ p ∈ op.arming, s.Unused p.1 p.2) (ok : Bool) :
    TimerInv (s.ran ok n c op rest) := by
  cases hop : op.isTimerOp with
  | true =>
    cases op with
    | armSession key generation => exact h.armSession hn (hunused (key, generation) rfl) ok
    | cancelSession key => exact h.cancelSession hn ok
    | checkExpired key generation arming => exact h.checkExpired hn ok
    | _ => contradiction
  | false =>
    obtain ⟨htimers, harmings, hexpired, hqueue, hops⟩ := perform_timers s ok hop
    refine h.of_same htimers harmings hexpired fun key generation arming ho => ?_
    obtain ho | ho := ho
    · exact Or.inl (hqueue ▸ ho)
    · obtain ho | ho := Script.pending_set hn ho
      · exact Or.inr ho
      · exact absurd ho (hops key generation arming)

end Run

/-! ## the other steps -/

section

variable (h : TimerInv s)
include h

theorem TimerInv.internal {n : Nat} {e : InternalEvent} (he : s.queue[n]? = some e)
    (hstart : ({ s with queue := s.queue.eraseIdx n } : State).start e.callId e.ops = some s') :
    TimerInv s' := by
  obtain ⟨-, rfl⟩ := State.start_eq_some hstart
  refine h.of_same rfl rfl rfl fun key generation arming ho => ?_
  obtain ho | ho := ho
  · exact Or.inl (List.mem_of_mem_eraseIdx ho)
  · obtain ho | ho := Script.pending_append.mp ho
    · exact Or.inr ho
    · have hmem : e = .sessionExpired key generation arming := by simpa using ho
      left
      rw [← hmem]
      exact List.mem_of_getElem? he

theorem TimerInv.expire {n : Nat} {key : DialogKey} {generation : UInt64}
    (hn : s.armings[n]? = some ⟨key, generation, true⟩) : TimerInv { s with
      armings := s.armings.set n ⟨key, generation, false⟩
      queue := s.queue ++ [.sessionExpired key generation n] } := by
  have htable := h.live n _ hn rfl
  constructor
  · intro m a ha hlive
    have ha : (s.armings.set n ⟨key, generation, false⟩)[m]? = some a := ha
    rw [List.getElem?_set] at ha
    split at ha
    · split at ha
      · obtain rfl := Option.some.inj ha
        contradiction
      · contradiction
    · exact h.live m a ha hlive
  · intro key' generation' arming t ho hlookup hgen
    obtain ho | ho := ho
    · obtain ho | ho := List.mem_append.mp ho
      · exact h.current key' generation' arming t (Or.inl ho) hlookup hgen
      · obtain ⟨rfl, rfl, rfl⟩ : key' = key ∧ generation' = generation ∧ arming = n := by
          simpa using ho
        rw [htable, Option.some.injEq] at hlookup
        rw [← hlookup]
    · exact h.current key' generation' arming t (Or.inr ho) hlookup hgen
  · exact h.expired

theorem TimerInv.of_event (htimers : s'.sessionTimers = s.sessionTimers)
    (harmings : s'.armings = s.armings) (hexpired : s'.expired = s.expired)
    (hhandlers : s'.handlers = s.handlers) {e : InternalEvent}
    (he : ∀ key generation arming, e ≠ .sessionExpired key generation arming)
    (hqueue : s'.queue = s.queue ∨ s'.queue = s.queue ++ [e]) : TimerInv s' := by
  refine h.of_same htimers harmings hexpired fun key generation arming ho => ?_
  obtain ho | ho := ho
  · left
    obtain hq | hq := hqueue
    · rwa [hq] at ho
    · rw [hq, List.mem_append, List.mem_singleton] at ho
      exact ho.resolve_right fun heq => he key generation arming heq.symm
  · exact Or.inr (hhandlers ▸ ho)

theorem TimerInv.step {a : Action} (hok : GenerationsUnused s a)
    (hstep : s.step a = some s') : TimerInv s' := by
  cases a with
  | invite i =>
    simp only [State.step] at hstep
    split at hstep
    · contradiction
    · have h' : TimerInv { s with issued := i.key :: s.issued } :=
        h.of_same rfl rfl rfl fun _ _ _ ho => ho
      obtain ⟨o, hops, ho⟩ := i.ops_eq
      refine h'.start ?_ hstep
      rw [hops]
      obtain rfl | rfl | rfl | ⟨room, leg, _, rfl⟩ := ho <;> simp
  | refresh key r => exact h.start (by simp) hstep
  | ack key => exact h.start (by simp) hstep
  | bye key => exact h.start (by simp) hstep
  | internal n =>
    simp only [State.step] at hstep
    split at hstep
    · next e he => exact h.internal he hstep
    · contradiction
  | run n ok =>
    obtain ⟨c, op, rest, hn, hop, rfl⟩ := State.step_run hstep
    exact h.run hn (hok (op, ok) hop) ok
  | expire n =>
    simp only [State.step] at hstep
    split at hstep
    · next key generation hn =>
      obtain rfl := Option.some.inj hstep
      exact h.expire hn
    · contradiction
  | strike n =>
    simp only [State.step] at hstep
    split at hstep
    · next key hn =>
      obtain rfl := Option.some.inj hstep
      exact h.of_event rfl rfl rfl rfl (fun _ _ _ => by simp) (Or.inr rfl)
    · contradiction
  | retransmit n sent =>
    simp only [State.step] at hstep
    split at hstep
    · obtain rfl := Option.some.inj hstep
      cases sent <;> exact h.of_same rfl rfl rfl fun _ _ _ ho => ho
    · contradiction
  | giveUp n | quit n | settle n | release n =>
    simp only [State.step] at hstep
    split at hstep
    · obtain rfl := Option.some.inj hstep
      exact h.of_same rfl rfl rfl fun _ _ _ ho => ho
    · contradiction
  | notify n =>
    simp only [State.step] at hstep
    split at hstep
    · next key cancelled hn =>
      obtain rfl := Option.some.inj hstep
      exact h.of_event rfl rfl rfl rfl (fun _ _ _ => by simp) (Or.inr rfl)
    · contradiction

end

/-! ## the result -/

/-- **Session timers are safe.**  In every run whose armings all use a
generation that no event under way carries, a call is ended for an expired
session only by an event of the arming the table holds at that moment: no
event of an arming that has been refreshed or cancelled ends the call. -/
theorem session_timer_safe (guarded : Bool) (records : List DialogRecord) (acts : List Action)
    (s : State) (hexec : exec State.step (restore guarded records) acts = some s)
    (hunused : Meets State.step GenerationsUnused (restore guarded records) acts) :
    ExpiriesCurrent s := by
  have h0 : TimerInv (restore guarded records) := by
    constructor <;> simp [restore, State.Outstanding, Script.Pending, ExpiriesCurrent]
  have h : TimerInv s :=
    exec_invariant_of_meets (fun _ _ _ h hok hstep => h.step hok hstep) hexec hunused h0
  exact h.expired

/-- A call with a session timer, and the timer has just run out. -/
def expiredCall : List Action :=
  .invite ⟨("a", "1", "2"), none, none, none, .rendezvous, true⟩ :: runs 0 5 ++
    .ack ("a", "1", "2") :: runs 1 2 ++ ([.expire 0] : List Action)

/-- A refresh comes first and the old event is ignored; the event of the
refreshed timer ends the call. -/
theorem session_timer_safe_refreshed : ∃ s, exec State.step (restore false [])
        (expiredCall ++ .refresh ("a", "1", "2") ⟨false, none, true⟩ :: runs 2 3 ++
          .internal 0 :: runs 3 1 ++ .expire 1 :: .internal 0 :: runs 4 2) = some s ∧
      s.expired = [(1, 1)] ∧ s.torn = [("a", "1", "2")] ∧ ExpiriesCurrent s := by
  have hrun : (exec State.step (restore false [])
      (expiredCall ++ .refresh ("a", "1", "2") ⟨false, none, true⟩ :: runs 2 3 ++
        .internal 0 :: runs 3 1 ++ .expire 1 :: .internal 0 :: runs 4 2)).map
      (fun s => (s.expired, s.torn)) = some ([(1, 1)], [("a", "1", "2")]) := by
    decide +kernel
  obtain ⟨s, hexec, hs⟩ := Option.map_eq_some_iff.mp hrun
  obtain ⟨hexpired, htorn⟩ := Prod.mk.inj hs
  exact ⟨s, hexec, hexpired, htorn, session_timer_safe false [] _ s hexec (by decide +kernel)⟩

/-- One refresh takes the timer away and the next brings one back: it starts
again at generation 1, and the old event is taken for one of its own. -/
theorem stale_expiry_ends_call :
    ¬ ∀ (guarded : Bool) (records : List DialogRecord) (acts : List Action) (s : State),
      exec State.step (restore guarded records) acts = some s → ExpiriesCurrent s := by
  intro h
  have hrun : (exec State.step (restore false [])
      (expiredCall ++ .refresh ("a", "1", "2") ⟨false, none, false⟩ :: runs 2 2 ++
        .refresh ("a", "1", "2") ⟨false, none, true⟩ :: runs 3 3 ++
        .internal 0 :: runs 4 2)).map (fun s => (s.expired, s.torn)) =
      some ([(0, 1)], [("a", "1", "2")]) := by
    decide +kernel
  obtain ⟨s, hexec, hs⟩ := Option.map_eq_some_iff.mp hrun
  obtain ⟨hexpired, _⟩ := Prod.mk.inj hs
  have hcurrent : (0, 1).1 = (0, 1).2 := h false [] _ s hexec (0, 1) (by rw [hexpired]; simp)
  exact absurd hcurrent (by decide)

end SmithsNet.Uas.Calls
