import Mathlib
import SmithsNet.Lib.Exec

/-!
# SmithsNet.Uas.Dispatch

The dispatcher of the UAS and its `Call-ID` workers (`dispatch` and
`run_worker` in `smiths-sip/src/uas.rs`).

One task hands items out; each worker is a task of its own.  What a lock makes
one is one action: looking a worker up and sending to it, and the retirement
check with the removal from the map.  Everything between is interleaved freely,
and a worker may find itself idle at any time.

`dispatch_ordered`: the items of a `Call-ID` are processed once each and in the
order of their arrival, never by two workers at a time, and whatever has been
handed out can always be worked off.
-/

namespace SmithsNet.Uas.Dispatch

open Lib

variable {κ ι : Type} [DecidableEq κ]

/-! ## the state -/

/-- Where a worker stands in its loop. -/
inductive Phase (ι : Type)
  /-- In `recv` with the idle timeout. -/
  | waiting
  /-- The timeout has struck; the map entry is not locked yet. -/
  | retiring
  | processing (item : ι)
  /-- The task has ended and its queue is gone. -/
  | finished

structure Worker (κ ι : Type) where
  callId : κ
  queue : List ι
  phase : Phase ι

/-- What the dispatching task is about. -/
inductive Hand (κ ι : Type)
  | idle
  /-- At the top of the loop, with the item. -/
  | looking (callId : κ) (item : ι)
  /-- Found no worker that takes the item. -/
  | creating (callId : κ) (item : ι)

structure State (κ ι : Type) where
  /-- The sender registered for a `Call-ID`, as the number of its worker. -/
  workers : κ → Option Nat
  /-- All workers ever spawned. -/
  pool : List (Worker κ ι)
  hand : Hand κ ι
  /-- Items handed to `dispatch`, in order. -/
  arrived : List (κ × ι)
  /-- Items a worker has taken up, in order. -/
  begun : List (κ × ι)
  /-- Items a worker is done with, in order. -/
  completed : List (κ × ι)

open State

def State.start : State κ ι := ⟨fun _ => none, [], .idle, [], [], []⟩

def Worker.isFinished (w : Worker κ ι) : Bool :=
  match w.phase with
  | .finished => true
  | _ => false

/-! ## the steps -/

inductive Action (κ ι : Type)
  /-- The run loop calls `dispatch`. -/
  | arrive (callId : κ) (item : ι)
  /-- `workers.get` and `tx.send`. -/
  | look
  /-- A new channel, `workers.insert` and `spawn`. -/
  | create
  /-- `recv` returns an item. -/
  | recv (w : Nat)
  /-- The idle timeout strikes. -/
  | idle (w : Nat)
  /-- The retirement check under the entry's lock. -/
  | retire (w : Nat)
  /-- `recv` finds that no sender is left. -/
  | closed (w : Nat)
  /-- The handler returns. -/
  | finish (w : Nat)

/-- Register a sender, or remove it. -/
def State.register (s : State κ ι) (k : κ) (w : Option Nat) : State κ ι :=
  { s with workers := fun k' => if k' = k then w else s.workers k' }

def State.setWorker (s : State κ ι) (w : Nat) (worker : Worker κ ι) : State κ ι :=
  { s with pool := s.pool.set w worker }

/-- A worker takes up the first item of its queue. -/
def State.begin (s : State κ ι) (w : Nat) (k : κ) (item : ι) (rest : List ι) : State κ ι :=
  { s.setWorker w ⟨k, rest, .processing item⟩ with begun := s.begun ++ [(k, item)] }

/-- The item is sent, unless the receiver is gone. -/
def State.send (s : State κ ι) (k : κ) (item : ι) (w : Nat) : Option (State κ ι) :=
  match s.pool[w]? with
  | none => none
  | some worker =>
    if worker.isFinished then some { s with hand := .creating k item }
    else some { s.setWorker w { worker with queue := worker.queue ++ [item] } with hand := .idle }

def step (s : State κ ι) : Action κ ι → Option (State κ ι)
  | .arrive k item =>
    match s.hand with
    | .idle => some { s with hand := .looking k item, arrived := s.arrived ++ [(k, item)] }
    | _ => none
  | .look =>
    match s.hand with
    | .looking k item =>
      match s.workers k with
      | some w => s.send k item w
      | none => some { s with hand := .creating k item }
    | _ => none
  | .create =>
    match s.hand with
    | .creating k item =>
      some { s.register k (some s.pool.length) with
        pool := s.pool ++ [⟨k, [], .waiting⟩], hand := .looking k item }
    | _ => none
  | .recv w =>
    match s.pool[w]? with
    | some ⟨k, item :: rest, .waiting⟩ => some (s.begin w k item rest)
    | _ => none
  | .idle w =>
    match s.pool[w]? with
    | some ⟨k, queue, .waiting⟩ => some (s.setWorker w ⟨k, queue, .retiring⟩)
    | _ => none
  | .retire w =>
    match s.pool[w]? with
    | some ⟨k, item :: rest, .retiring⟩ => some (s.begin w k item rest)
    | some ⟨k, [], .retiring⟩ => some ((s.register k none).setWorker w ⟨k, [], .finished⟩)
    | _ => none
  | .closed w =>
    match s.pool[w]? with
    | some ⟨k, [], .waiting⟩ =>
      if s.workers k = some w then none else some (s.setWorker w ⟨k, [], .finished⟩)
    | _ => none
  | .finish w =>
    match s.pool[w]? with
    | some ⟨k, queue, .processing item⟩ =>
      some { s.setWorker w ⟨k, queue, .waiting⟩ with completed := s.completed ++ [(k, item)] }
    | _ => none

/-! ## the items of a `Call-ID` -/

/-- The items of one `Call-ID`, in order. -/
def itemsOf (k : κ) (log : List (κ × ι)) : List ι :=
  (log.filter fun p => p.1 = k).map Prod.snd

@[simp] theorem itemsOf_append (k : κ) (l l' : List (κ × ι)) :
    itemsOf k (l ++ l') = itemsOf k l ++ itemsOf k l' := by
  simp [itemsOf]

@[simp] theorem itemsOf_single_self (k : κ) (x : ι) : itemsOf k [(k, x)] = [x] := by
  simp [itemsOf]

theorem itemsOf_single_ne {k k' : κ} (h : k' ≠ k) (x : ι) : itemsOf k' [(k, x)] = [] := by
  simp [itemsOf, h.symm]

/-- The worker whose sender is registered. -/
def State.workerOf (s : State κ ι) (k : κ) : Option (Worker κ ι) :=
  (s.workers k).bind fun w => s.pool[w]?

/-- The items waiting in its queue. -/
def State.queueOf (s : State κ ι) (k : κ) : List ι := ((s.workerOf k).map Worker.queue).getD []

/-- The item the worker is at. -/
def Worker.current (w : Worker κ ι) : List ι :=
  match w.phase with
  | .processing item => [item]
  | _ => []

def State.currentOf (s : State κ ι) (k : κ) : List ι := ((s.workerOf k).map Worker.current).getD []

/-- The item in the dispatcher's hand. -/
def Hand.inHand (k : κ) : Hand κ ι → List ι
  | .idle => []
  | .looking k' item => if k' = k then [item] else []
  | .creating k' item => if k' = k then [item] else []

/-! ## the invariant -/

structure Inv (s : State κ ι) : Prop where
  /-- A registered sender leads to a live worker of its `Call-ID`. -/
  registered : ∀ k w, s.workers k = some w →
    ∃ worker, s.pool[w]? = some worker ∧ worker.callId = k ∧ worker.isFinished = false
  /-- A live worker is the registered one. -/
  lone : ∀ w worker, s.pool[w]? = some worker → worker.isFinished = false →
    s.workers worker.callId = some w
  /-- A worker is created only where none is registered. -/
  creating : ∀ k item, s.hand = .creating k item → s.workers k = none
  /-- What has arrived is taken up, queued or in hand, in this order. -/
  order : ∀ k, itemsOf k s.arrived = itemsOf k s.begun ++ s.queueOf k ++ s.hand.inHand k
  /-- What has been taken up is done, or being done. -/
  progress : ∀ k, itemsOf k s.begun = itemsOf k s.completed ++ s.currentOf k

theorem Inv.start : Inv (start : State κ ι) := by
  constructor
  · intro k w h
    contradiction
  · intro w worker h
    contradiction
  · intro k item h
    contradiction
  · intro k
    rfl
  · intro k
    rfl

section Steps

variable {s s' : State κ ι} {w : Nat} {worker worker' : Worker κ ι} {k : κ}

section

variable (h : Inv s)
include h

theorem Inv.workerOf_eq (hworker : s.pool[w]? = some worker)
    (hlive : worker.isFinished = false) : s.workerOf worker.callId = some worker := by
  unfold workerOf
  rw [h.lone w worker hworker hlive]
  exact hworker

/-- Changing a live worker changes what its own `Call-ID` sees, and nothing else. -/
theorem Inv.workerOf_set (hworker : s.pool[w]? = some worker)
    (hlive : worker.isFinished = false) (hworkers : s'.workers = s.workers)
    (hpool : s'.pool = s.pool.set w worker') (k : κ) :
    s'.workerOf k = if k = worker.callId then some worker' else s.workerOf k := by
  have hlt : w < s.pool.length := (List.getElem?_eq_some_iff.mp hworker).1
  unfold workerOf
  rw [hworkers, hpool]
  by_cases hk : k = worker.callId
  · subst hk
    rw [if_pos rfl, h.lone w worker hworker hlive]
    simp [hlt]
  · rw [if_neg hk]
    cases hreg : s.workers k with
    | none => rfl
    | some w' =>
      have hne : w ≠ w' := by
        rintro rfl
        obtain ⟨other, hother, hid, _⟩ := h.registered k w hreg
        rw [hworker] at hother
        obtain rfl := Option.some.inj hother
        exact hk hid.symm
      simp [List.getElem?_set_ne hne]

theorem Inv.touch (worker' : Worker κ ι) (hworker : s.pool[w]? = some worker)
    (hlive : worker.isFinished = false)
    (hid : worker'.callId = worker.callId) (hlive' : worker'.isFinished = false)
    (hworkers : s'.workers = s.workers) (hpool : s'.pool = s.pool.set w worker')
    (hcreating : ∀ k item, s'.hand = .creating k item → s.hand = .creating k item)
    (horder : itemsOf worker.callId s'.arrived =
      itemsOf worker.callId s'.begun ++ worker'.queue ++ s'.hand.inHand worker.callId)
    (hprogress : itemsOf worker.callId s'.begun =
      itemsOf worker.callId s'.completed ++ worker'.current)
    (hothers : ∀ k, k ≠ worker.callId → itemsOf k s'.arrived = itemsOf k s.arrived ∧
      itemsOf k s'.begun = itemsOf k s.begun ∧ itemsOf k s'.completed = itemsOf k s.completed ∧
      s'.hand.inHand k = s.hand.inHand k) : Inv s' := by
  have hlt : w < s.pool.length := (List.getElem?_eq_some_iff.mp hworker).1
  have hof := h.workerOf_set hworker hlive hworkers hpool
  have hqueue : ∀ k, s'.queueOf k = if k = worker.callId then worker'.queue else s.queueOf k := by
    intro k
    unfold queueOf
    rw [hof]
    split <;> rfl
  have hcurrent : ∀ k, s'.currentOf k = if k = worker.callId then worker'.current else s.currentOf k := by
    intro k
    unfold currentOf
    rw [hof]
    split <;> rfl
  constructor
  · intro k w' hreg
    rw [hworkers] at hreg
    by_cases hw : w' = w
    · subst hw
      refine ⟨worker', ?_, ?_, hlive'⟩
      · rw [hpool]
        simp [hlt]
      · obtain ⟨other, hother, hother_id, _⟩ := h.registered k w' hreg
        rw [hworker] at hother
        obtain rfl := Option.some.inj hother
        rw [hid, hother_id]
    · rw [hpool, List.getElem?_set_ne (Ne.symm hw)]
      exact h.registered k w' hreg
  · intro w' other hother hlive_other
    rw [hpool] at hother
    rw [hworkers]
    by_cases hw : w' = w
    · subst hw
      rw [List.getElem?_set_self hlt] at hother
      obtain rfl := Option.some.inj hother
      rw [hid]
      exact h.lone w' worker hworker hlive
    · rw [List.getElem?_set_ne (Ne.symm hw)] at hother
      exact h.lone w' other hother hlive_other
  · intro k item hhand
    rw [hworkers]
    exact h.creating k item (hcreating k item hhand)
  · intro k
    rw [hqueue]
    by_cases hk : k = worker.callId
    · subst hk
      rw [if_pos rfl]
      exact horder
    · obtain ⟨h1, h2, _, h4⟩ := hothers k hk
      rw [if_neg hk, h1, h2, h4]
      exact h.order k
  · intro k
    rw [hcurrent]
    by_cases hk : k = worker.callId
    · subst hk
      rw [if_pos rfl]
      exact hprogress
    · obtain ⟨_, h2, h3, _⟩ := hothers k hk
      rw [if_neg hk, h2, h3]
      exact h.progress k

theorem Inv.arrive (k : κ) (item : ι) (hhand : s.hand = .idle) :
    Inv { s with hand := .looking k item, arrived := s.arrived ++ [(k, item)] } := by
  refine ⟨h.registered, h.lone, fun k' x hcreating => (nomatch hcreating), ?_, h.progress⟩
  intro k'
  have horder := h.order k'
  rw [hhand] at horder
  have hcells : queueOf { s with hand := .looking k item, arrived := s.arrived ++ [(k, item)] } k' =
    s.queueOf k' := rfl
  rw [itemsOf_append, horder, hcells]
  by_cases hk : k' = k
  · subst hk
    simp [Hand.inHand]
  · simp [Hand.inHand, itemsOf_single_ne hk, Ne.symm hk]

theorem Inv.send {k : κ} {item : ι} (hhand : s.hand = .looking k item)
    (hreg : s.workers k = some w) (hsend : s.send k item w = some s') : Inv s' := by
  obtain ⟨worker, hworker, rfl, hlive⟩ := h.registered k w hreg
  unfold State.send at hsend
  rw [hworker] at hsend
  simp only [hlive, Bool.false_eq_true, if_false, Option.some.injEq] at hsend
  subst hsend
  have horder := h.order worker.callId
  have hprogress := h.progress worker.callId
  rw [hhand] at horder
  rw [queueOf, h.workerOf_eq hworker hlive] at horder
  rw [currentOf, h.workerOf_eq hworker hlive] at hprogress
  refine h.touch { worker with queue := worker.queue ++ [item] } hworker hlive rfl hlive
    rfl rfl (fun k x hcreating => (nomatch hcreating)) ?_ hprogress ?_
  · simpa [Hand.inHand, State.setWorker] using horder
  · intro k hk
    refine ⟨rfl, rfl, rfl, ?_⟩
    rw [hhand]
    simp [Hand.inHand, Ne.symm hk]

theorem Inv.create {k : κ} {item : ι} (hhand : s.hand = .creating k item) :
    Inv { s.register k (some s.pool.length) with
      pool := s.pool ++ [⟨k, [], .waiting⟩], hand := .looking k item } := by
  have hnone := h.creating k item hhand
  generalize hs' : ({ s.register k (some s.pool.length) with
    pool := s.pool ++ [⟨k, [], .waiting⟩], hand := .looking k item } : State κ ι) = s'
  have hworkers : ∀ k', s'.workers k' = if k' = k then some s.pool.length else s.workers k' := by
    rw [← hs']
    exact fun k' => rfl
  have hpool : s'.pool = s.pool ++ [⟨k, [], .waiting⟩] := by
    rw [← hs']
  have hold : ∀ k', k' ≠ k → s'.workerOf k' = s.workerOf k' := by
    intro k' hk
    unfold workerOf
    rw [hworkers, if_neg hk, hpool]
    cases hreg : s.workers k' with
    | none => rfl
    | some w =>
      obtain ⟨worker, hworker, _⟩ := h.registered k' w hreg
      have hlt : w < s.pool.length := (List.getElem?_eq_some_iff.mp hworker).1
      simp [List.getElem?_append_left hlt]
  have hnew : s'.workerOf k = some ⟨k, [], .waiting⟩ := by
    unfold workerOf
    rw [hworkers, if_pos rfl, hpool]
    simp
  have hbefore : s.workerOf k = none := by
    unfold workerOf
    rw [hnone]
    rfl
  have hqueue : ∀ k', s'.queueOf k' = s.queueOf k' := by
    intro k'
    unfold queueOf
    by_cases hk : k' = k
    · subst hk
      rw [hnew, hbefore]
      rfl
    · rw [hold k' hk]
  have hcurrent : ∀ k', s'.currentOf k' = s.currentOf k' := by
    intro k'
    unfold currentOf
    by_cases hk : k' = k
    · subst hk
      rw [hnew, hbefore]
      rfl
    · rw [hold k' hk]
  constructor
  · intro k' w hreg
    rw [hworkers] at hreg
    rw [hpool]
    split at hreg
    · next hk =>
      obtain rfl := Option.some.inj hreg
      exact ⟨⟨k, [], .waiting⟩, by simp, hk.symm, rfl⟩
    · obtain ⟨worker, hworker, hid, hlive⟩ := h.registered k' w hreg
      have hlt : w < s.pool.length := (List.getElem?_eq_some_iff.mp hworker).1
      exact ⟨worker, by rwa [List.getElem?_append_left hlt], hid, hlive⟩
  · intro w worker hworker hlive
    rw [hpool] at hworker
    rw [hworkers]
    by_cases hlt : w < s.pool.length
    · rw [List.getElem?_append_left hlt] at hworker
      have hlone := h.lone w worker hworker hlive
      have hne : worker.callId ≠ k := by
        rintro rfl
        rw [hnone] at hlone
        contradiction
      rw [if_neg hne, hlone]
    · have hw : w = s.pool.length := by
        have hbound := (List.getElem?_eq_some_iff.mp hworker).1
        simp at hbound
        omega
      subst hw
      simp only [List.getElem?_concat_length, Option.some.injEq] at hworker
      subst hworker
      rw [if_pos rfl]
  · intro k' x hcreating
    rw [← hs'] at hcreating
    contradiction
  · intro k'
    have horder := h.order k'
    rw [hhand] at horder
    rw [hqueue, ← hs']
    exact horder
  · intro k'
    rw [hcurrent, ← hs']
    exact h.progress k'

theorem Inv.begin {k : κ} {item : ι} {rest : List ι} {phase : Phase ι}
    (hworker : s.pool[w]? = some ⟨k, item :: rest, phase⟩)
    (hlive : Worker.isFinished (⟨k, item :: rest, phase⟩ : Worker κ ι) = false)
    (hfree : Worker.current (⟨k, item :: rest, phase⟩ : Worker κ ι) = []) :
    Inv (s.begin w k item rest) := by
  have horder := h.order k
  have hprogress := h.progress k
  have hof : s.workerOf k = some ⟨k, item :: rest, phase⟩ := h.workerOf_eq hworker hlive
  rw [queueOf, hof] at horder
  rw [currentOf, hof] at hprogress
  simp only [Option.map_some, Option.getD_some, hfree, List.append_nil] at horder hprogress
  refine h.touch ⟨k, rest, .processing item⟩ hworker hlive rfl rfl rfl rfl
    (fun k x hcreating => hcreating) ?_ ?_ ?_
  · show itemsOf k s.arrived = itemsOf k (s.begun ++ [(k, item)]) ++ rest ++ s.hand.inHand k
    simp [horder]
  · show itemsOf k (s.begun ++ [(k, item)]) = itemsOf k s.completed ++ [item]
    simp [hprogress]
  · intro k' hk
    refine ⟨rfl, ?_, rfl, rfl⟩
    show itemsOf k' (s.begun ++ [(k, item)]) = itemsOf k' s.begun
    rw [itemsOf_append, itemsOf_single_ne hk, List.append_nil]

theorem Inv.idle {k : κ} {queue : List ι} (hworker : s.pool[w]? = some ⟨k, queue, .waiting⟩) :
    Inv (s.setWorker w ⟨k, queue, .retiring⟩) := by
  have horder := h.order k
  have hprogress := h.progress k
  have hof : s.workerOf k = some ⟨k, queue, .waiting⟩ := h.workerOf_eq hworker rfl
  rw [queueOf, hof] at horder
  rw [currentOf, hof] at hprogress
  exact h.touch ⟨k, queue, .retiring⟩ hworker rfl rfl rfl rfl rfl (fun k x hcreating => hcreating)
    horder hprogress fun k' _ => ⟨rfl, rfl, rfl, rfl⟩

theorem Inv.finish {k : κ} {queue : List ι} {item : ι}
    (hworker : s.pool[w]? = some ⟨k, queue, .processing item⟩) :
    Inv { s.setWorker w ⟨k, queue, .waiting⟩ with completed := s.completed ++ [(k, item)] } := by
  have horder := h.order k
  have hprogress := h.progress k
  have hof : s.workerOf k = some ⟨k, queue, .processing item⟩ := h.workerOf_eq hworker rfl
  rw [queueOf, hof] at horder
  rw [currentOf, hof] at hprogress
  refine h.touch ⟨k, queue, .waiting⟩ hworker rfl rfl rfl rfl rfl (fun k x hcreating => hcreating)
    horder ?_ ?_
  · show itemsOf k s.begun = itemsOf k (s.completed ++ [(k, item)]) ++ []
    rw [itemsOf_append, itemsOf_single_self, List.append_nil]
    exact hprogress
  · intro k' hk
    refine ⟨rfl, rfl, ?_, rfl⟩
    show itemsOf k' (s.completed ++ [(k, item)]) = itemsOf k' s.completed
    rw [itemsOf_append, itemsOf_single_ne hk, List.append_nil]

/-- A worker whose queue is empty under the lock leaves with its map entry. -/
theorem Inv.retire {k : κ} (hworker : s.pool[w]? = some ⟨k, [], .retiring⟩) :
    Inv ((s.register k none).setWorker w ⟨k, [], .finished⟩) := by
  have hlt : w < s.pool.length := (List.getElem?_eq_some_iff.mp hworker).1
  have hreg : s.workers k = some w := h.lone w _ hworker rfl
  have hof : s.workerOf k = some ⟨k, [], .retiring⟩ := h.workerOf_eq hworker rfl
  generalize hs' : (s.register k none).setWorker w ⟨k, [], .finished⟩ = s'
  have hworkers : ∀ k', s'.workers k' = if k' = k then none else s.workers k' := by
    rw [← hs']
    exact fun k' => rfl
  have hpool : s'.pool = s.pool.set w ⟨k, [], .finished⟩ := by
    rw [← hs']
    rfl
  have hother : ∀ k' w', k' ≠ k → s.workers k' = some w' → w ≠ w' := by
    rintro k' w' hk hreg' rfl
    obtain ⟨worker, hworker', hid, _⟩ := h.registered k' w hreg'
    rw [hworker] at hworker'
    obtain rfl := Option.some.inj hworker'
    exact hk hid.symm
  have hold : ∀ k', k' ≠ k → s'.workerOf k' = s.workerOf k' := by
    intro k' hk
    unfold workerOf
    rw [hworkers, if_neg hk, hpool]
    cases hreg' : s.workers k' with
    | none => rfl
    | some w' => simp [List.getElem?_set_ne (hother k' w' hk hreg')]
  have hnew : s'.workerOf k = none := by
    unfold workerOf
    rw [hworkers, if_pos rfl]
    rfl
  have hqueue : ∀ k', s'.queueOf k' = s.queueOf k' := by
    intro k'
    unfold queueOf
    by_cases hk : k' = k
    · subst hk
      rw [hnew, hof]
      rfl
    · rw [hold k' hk]
  have hcurrent : ∀ k', s'.currentOf k' = s.currentOf k' := by
    intro k'
    unfold currentOf
    by_cases hk : k' = k
    · subst hk
      rw [hnew, hof]
      rfl
    · rw [hold k' hk]
  constructor
  · intro k' w' hreg'
    rw [hworkers] at hreg'
    split at hreg'
    · contradiction
    · next hk =>
      rw [hpool, List.getElem?_set_ne (hother k' w' hk hreg')]
      exact h.registered k' w' hreg'
  · intro w' worker hworker' hlive
    rw [hpool] at hworker'
    by_cases hw : w' = w
    · subst hw
      rw [List.getElem?_set_self hlt] at hworker'
      obtain rfl := Option.some.inj hworker'
      contradiction
    · rw [List.getElem?_set_ne (Ne.symm hw)] at hworker'
      have hlone := h.lone w' worker hworker' hlive
      have hk : worker.callId ≠ k := by
        rintro rfl
        rw [hreg] at hlone
        exact hw (Option.some.inj hlone).symm
      rw [hworkers, if_neg hk]
      exact hlone
  · intro k' item hhand
    rw [hworkers]
    split
    · rfl
    · refine h.creating k' item ?_
      rw [← hs'] at hhand
      exact hhand
  · intro k'
    rw [hqueue, ← hs']
    exact h.order k'
  · intro k'
    rw [hcurrent, ← hs']
    exact h.progress k'

/-- **One step** keeps the invariant. -/
theorem Inv.step {a : Action κ ι} (hstep : step s a = some s') : Inv s' := by
  cases a with
  | arrive k item =>
    simp only [Dispatch.step] at hstep
    split at hstep
    · next hhand =>
      obtain rfl := Option.some.inj hstep
      exact h.arrive k item hhand
    · contradiction
  | look =>
    simp only [Dispatch.step] at hstep
    split at hstep
    · next k item hhand =>
      split at hstep
      · next w hreg => exact h.send hhand hreg hstep
      · next hreg =>
        obtain rfl := Option.some.inj hstep
        refine ⟨h.registered, h.lone, ?_, ?_, h.progress⟩
        · intro k' x hcreating
          obtain ⟨rfl, _⟩ := Hand.creating.inj hcreating
          exact hreg
        · intro k'
          have horder := h.order k'
          rw [hhand] at horder
          exact horder
    · contradiction
  | create =>
    simp only [Dispatch.step] at hstep
    split at hstep
    · next k item hhand =>
      obtain rfl := Option.some.inj hstep
      exact h.create hhand
    · contradiction
  | recv w =>
    simp only [Dispatch.step] at hstep
    split at hstep
    · next k item rest hworker =>
      obtain rfl := Option.some.inj hstep
      exact h.begin hworker rfl rfl
    · contradiction
  | idle w =>
    simp only [Dispatch.step] at hstep
    split at hstep
    · next k queue hworker =>
      obtain rfl := Option.some.inj hstep
      exact h.idle hworker
    · contradiction
  | retire w =>
    simp only [Dispatch.step] at hstep
    split at hstep
    · next k item rest hworker =>
      obtain rfl := Option.some.inj hstep
      exact h.begin hworker rfl rfl
    · next k hworker =>
      obtain rfl := Option.some.inj hstep
      exact h.retire hworker
    · contradiction
  | closed w =>
    -- no live worker is without its sender
    simp only [Dispatch.step] at hstep
    split at hstep
    · next k hworker =>
      rw [if_pos (h.lone w _ hworker rfl)] at hstep
      contradiction
    · contradiction
  | finish w =>
    simp only [Dispatch.step] at hstep
    split at hstep
    · next k queue item hworker =>
      obtain rfl := Option.some.inj hstep
      exact h.finish hworker
    · contradiction

end

/-! ## working off -/

/-- What a worker still has to do. -/
def Worker.work (worker : Worker κ ι) : Nat :=
  if worker.isFinished then 0 else 2 * worker.queue.length + worker.current.length

/-- What the dispatching task still has to do: the item in its hand must find a
worker, be it a new one. -/
def State.handWork (s : State κ ι) : Nat :=
  match s.hand with
  | .idle => 0
  | .looking k _ => if (s.workers k).isSome then 3 else 5
  | .creating _ _ => 4

def State.work (s : State κ ι) : Nat := s.handWork + (s.pool.map Worker.work).sum

def Action.isArrival : Action κ ι → Bool
  | .arrive _ _ => true
  | _ => false

omit [DecidableEq κ] in
theorem sum_work_set {pool : List (Worker κ ι)} (worker' : Worker κ ι) (hworker : pool[w]? = some worker) :
    ((pool.set w worker').map Worker.work).sum + worker.work =
      (pool.map Worker.work).sum + worker'.work := by
  induction pool generalizing w with
  | nil => contradiction
  | cons x pool ih =>
    cases w with
    | zero =>
      obtain rfl : x = worker := Option.some.inj hworker
      simp only [List.set_cons_zero, List.map_cons, List.sum_cons]
      omega
    | succ w =>
      have hrest := ih hworker
      simp only [List.set_cons_succ, List.map_cons, List.sum_cons]
      omega

omit [DecidableEq κ] in
/-- A step that changes one worker and leaves the dispatching task alone. -/
theorem work_set_lt (worker' : Worker κ ι) (hworker : s.pool[w]? = some worker) (hhand : s'.hand = s.hand)
    (hworkers : s'.workers = s.workers) (hpool : s'.pool = s.pool.set w worker')
    (hless : worker'.work < worker.work) : s'.work < s.work := by
  have hsum := sum_work_set worker' hworker
  unfold work handWork
  rw [hhand, hworkers, hpool]
  omega

/-- As long as there is work, a step that is no arrival makes it less. -/
theorem Inv.workOff (h : Inv s) (hwork : 0 < s.work) :
    ∃ a s', Action.isArrival a = false ∧ Dispatch.step s a = some s' ∧ Inv s' ∧ s'.work < s.work := by
  have hdo : ∀ a s', Action.isArrival a = false → Dispatch.step s a = some s' → s'.work < s.work →
      ∃ a s', Action.isArrival a = false ∧ Dispatch.step s a = some s' ∧ Inv s' ∧ s'.work < s.work :=
    fun a s' ha hstep hless => ⟨a, s', ha, hstep, h.step hstep, hless⟩
  cases hhand : s.hand with
  | looking k item =>
    cases hreg : s.workers k with
    | none =>
      refine hdo .look { s with hand := .creating k item } rfl ?_ ?_
      · simp [Dispatch.step, hhand, hreg]
      · simp [work, handWork, hhand, hreg]
    | some w =>
      obtain ⟨worker, hworker, _, hlive⟩ := h.registered k w hreg
      refine hdo .look { s.setWorker w { worker with queue := worker.queue ++ [item] } with
        hand := .idle } rfl ?_ ?_
      · simp [Dispatch.step, hhand, hreg, State.send, hworker, hlive]
      · have hsum := sum_work_set { worker with queue := worker.queue ++ [item] } hworker
        have hmore : Worker.work { worker with queue := worker.queue ++ [item] } = worker.work + 2 := by
          have hlive' : Worker.isFinished { worker with queue := worker.queue ++ [item] } = false := hlive
          unfold Worker.work
          rw [hlive, hlive']
          simp [Worker.current]
          omega
        simp only [work, handWork, State.setWorker, hhand, hreg, Option.isSome_some, if_true]
        omega
  | creating k item =>
    refine hdo .create { s.register k (some s.pool.length) with
      pool := s.pool ++ [⟨k, [], .waiting⟩], hand := .looking k item } rfl ?_ ?_
    · simp [Dispatch.step, hhand]
    · simp [work, handWork, State.register, hhand, Worker.work, Worker.isFinished,
        Worker.current]
  | idle =>
    have hsome : ∃ worker ∈ s.pool, 0 < Worker.work worker := by
      by_contra hnone
      simp only [not_exists, not_and] at hnone
      have hsum : (s.pool.map Worker.work).sum = 0 := by
        refine List.sum_eq_zero fun n hn => ?_
        obtain ⟨worker, hmem, rfl⟩ := List.mem_map.mp hn
        exact Nat.eq_zero_of_not_pos (hnone worker hmem)
      simp [work, handWork, hhand, hsum] at hwork
    obtain ⟨⟨k, queue, phase⟩, hmem, hpos⟩ := hsome
    obtain ⟨w, hworker⟩ := List.mem_iff_getElem?.mp hmem
    cases phase with
    | finished => simp [Worker.work, Worker.isFinished] at hpos
    | processing item =>
      refine hdo (.finish w) { s.setWorker w ⟨k, queue, .waiting⟩ with
        completed := s.completed ++ [(k, item)] } rfl (by simp only [Dispatch.step, hworker]) ?_
      refine work_set_lt ⟨k, queue, .waiting⟩ hworker rfl rfl rfl ?_
      simp [Worker.work, Worker.isFinished, Worker.current]
    | waiting =>
      cases queue with
      | nil => simp [Worker.work, Worker.isFinished, Worker.current] at hpos
      | cons item rest =>
        refine hdo (.recv w) (s.begin w k item rest) rfl (by simp only [Dispatch.step, hworker]) ?_
        refine work_set_lt ⟨k, rest, .processing item⟩ hworker rfl rfl rfl ?_
        simp [Worker.work, Worker.isFinished, Worker.current]
        omega
    | retiring =>
      cases queue with
      | nil => simp [Worker.work, Worker.isFinished, Worker.current] at hpos
      | cons item rest =>
        refine hdo (.retire w) (s.begin w k item rest) rfl (by simp only [Dispatch.step, hworker]) ?_
        refine work_set_lt ⟨k, rest, .processing item⟩ hworker rfl rfl rfl ?_
        simp [Worker.work, Worker.isFinished, Worker.current]
        omega

theorem arrived_step {a : Action κ ι} (ha : Action.isArrival a = false)
    (hstep : Dispatch.step s a = some s') : s'.arrived = s.arrived := by
  cases a with
  | arrive k item => contradiction
  | look =>
    simp only [Dispatch.step, State.send] at hstep
    split at hstep
    · split at hstep
      · split at hstep
        · contradiction
        · split at hstep <;> (obtain rfl := Option.some.inj hstep; rfl)
      · obtain rfl := Option.some.inj hstep
        rfl
    · contradiction
  | retire w =>
    simp only [Dispatch.step] at hstep
    split at hstep
    · obtain rfl := Option.some.inj hstep
      rfl
    · obtain rfl := Option.some.inj hstep
      rfl
    · contradiction
  | closed w =>
    simp only [Dispatch.step] at hstep
    split at hstep
    · split at hstep
      · contradiction
      · obtain rfl := Option.some.inj hstep
        rfl
    · contradiction
  | create | recv w | idle w | finish w =>
    simp only [Dispatch.step] at hstep
    split at hstep
    · obtain rfl := Option.some.inj hstep
      rfl
    · contradiction

theorem Inv.completed_of_work_eq_zero (h : Inv s) (hwork : s.work = 0) (k : κ) :
    itemsOf k s.completed = itemsOf k s.arrived := by
  have hhand : s.hand.inHand k = [] := by
    unfold work handWork at hwork
    split at hwork
    · next hidle =>
      rw [hidle]
      rfl
    · split at hwork <;> omega
    · omega
  have hfree : s.queueOf k = [] ∧ s.currentOf k = [] := by
    unfold queueOf currentOf
    cases hof : s.workerOf k with
    | none => exact ⟨rfl, rfl⟩
    | some worker =>
      obtain ⟨w, hreg, hworker⟩ := Option.bind_eq_some_iff.mp hof
      obtain ⟨worker', hworker', _, hlive⟩ := h.registered k w hreg
      obtain rfl : worker = worker' := Option.mem_unique hworker hworker'
      have hsum : (s.pool.map Worker.work).sum = 0 := by
        unfold work at hwork
        omega
      have hzero : worker.work = 0 := List.sum_eq_zero_iff_forall_eq_nat.mp hsum worker.work
        (List.mem_map_of_mem (List.mem_of_getElem? hworker))
      unfold Worker.work at hzero
      rw [hlive] at hzero
      simp only [Bool.false_eq_true, if_false] at hzero
      have hqueue : worker.queue = [] := List.length_eq_zero_iff.mp (by omega)
      have hcurrent : worker.current = [] := List.length_eq_zero_iff.mp (by omega)
      exact ⟨hqueue, hcurrent⟩
  rw [h.order k, h.progress k, hfree.1, hfree.2, hhand]
  simp

end Steps

/-- **Order of a call's items**: in every run, what has arrived for a `Call-ID`
is, in this order, what has been completed, what is being processed, what is
queued and what the dispatching task still holds; one worker at most processes
items of a `Call-ID`; and without further arrivals the system can always get to
where every item has been completed, once. -/
theorem dispatch_ordered (acts : List (Action κ ι)) (s : State κ ι)
    (hrun : exec step start acts = some s) : (∀ k, itemsOf k s.arrived =
      itemsOf k s.completed ++ s.currentOf k ++ s.queueOf k ++ s.hand.inHand k) ∧
    (∀ (w w' : Nat) (worker worker' : Worker κ ι) x x', s.pool[w]? = some worker → s.pool[w']? = some worker' →
      worker.phase = .processing x → worker'.phase = .processing x' →
      worker.callId = worker'.callId → w = w') ∧
    ∃ rest s', (∀ a ∈ rest, Action.isArrival a = false) ∧ exec step s rest = some s' ∧
      s'.arrived = s.arrived ∧ ∀ k, itemsOf k s'.completed = itemsOf k s.arrived := by
  have h : Inv s := exec_invariant (fun _ _ _ h hstep => h.step hstep) hrun Inv.start
  refine ⟨?_, ?_, ?_⟩
  · intro k
    rw [h.order k, h.progress k]
  · intro w w' worker worker' x x' hworker hworker' hphase hphase' hid
    have hlive : worker.isFinished = false := by
      unfold Worker.isFinished
      rw [hphase]
    have hlive' : worker'.isFinished = false := by
      unfold Worker.isFinished
      rw [hphase']
    have hlone := h.lone w worker hworker hlive
    rw [hid, h.lone w' worker' hworker' hlive'] at hlone
    exact (Option.some.inj hlone).symm
  · -- what has arrived stays the same while it is worked off
    have hoff : ∀ t : State κ ι, Inv t ∧ t.arrived = s.arrived → 0 < t.work →
        ∃ a t', Action.isArrival a = false ∧ step t a = some t' ∧
          (Inv t' ∧ t'.arrived = s.arrived) ∧ t'.work < t.work := by
      rintro t ⟨ht, harrived⟩ hwork
      obtain ⟨a, t', ha, hstep, ht', hless⟩ := ht.workOff hwork
      exact ⟨a, t', ha, hstep, ⟨ht', (arrived_step ha hstep).trans harrived⟩, hless⟩
    obtain ⟨rest, s', hrest, hexec, ⟨h', harrived⟩, hzero⟩ := exec_to_zero work hoff s ⟨h, rfl⟩
    refine ⟨rest, s', hrest, hexec, harrived, fun k => ?_⟩
    rw [h'.completed_of_work_eq_zero hzero k, harrived]

/-- The second item meets a worker about to retire, the third one that has. -/
def retirementRace : List (Action Nat Nat) :=
  [.arrive 7 1, .look, .create, .look, .recv 0, .finish 0, .idle 0, .arrive 7 2, .look, .retire 0,
    .finish 0, .idle 0, .arrive 7 3, .retire 0, .look, .create, .look, .recv 1]

theorem dispatch_ordered_retirementRace :
    ∃ s, exec step start retirementRace = some s ∧ s.completed = [(7, 1), (7, 2)] ∧
      s.currentOf 7 = [3] ∧
      (∀ k, itemsOf k s.arrived =
        itemsOf k s.completed ++ s.currentOf k ++ s.queueOf k ++ s.hand.inHand k) ∧
      (∀ (w w' : Nat) (worker worker' : Worker Nat Nat) x x', s.pool[w]? = some worker →
        s.pool[w']? = some worker' → worker.phase = .processing x → worker'.phase = .processing x' →
        worker.callId = worker'.callId → w = w') ∧
      ∃ rest s', (∀ a ∈ rest, Action.isArrival a = false) ∧ exec step s rest = some s' ∧
        s'.arrived = s.arrived ∧ ∀ k, itemsOf k s'.completed = itemsOf k s.arrived :=
  ⟨_, rfl, rfl, rfl, dispatch_ordered retirementRace _ rfl⟩

end SmithsNet.Uas.Dispatch
