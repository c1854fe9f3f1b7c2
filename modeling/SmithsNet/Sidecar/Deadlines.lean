import SmithsNet.Sidecar.Cancellation

/-!
# SmithsNet.Sidecar.Deadlines

Whether a call returns when its time is up (`call_with_timeout` and `shutdown` of
`smiths-sidecar/src/supervisor.rs`): the sidecar of `Sidecar.Supervisor` on a clock, with pipes
that hold so many bytes and a child that reads them when it likes.

A call times out only while it waits for its response.  It takes the lock of the process and
writes its frame before, and no clock runs then: where the child has stopped reading and its
pipe is full, the call that holds the lock waits for the child, and every other call for that
one.  `deadlines_kept_iff` says which overdue calls can return on their own; `shutdown` asks the
child by such a call, and completes once that has returned.
-/

namespace SmithsNet.Sidecar

open Lib Table State

variable {Value : Type}

/-- A sidecar on a clock. -/
structure Clocked (Value : Type) where
  state : State Value
  now : Nat
  /-- When a call began, and the time it was given. -/
  begun : Nat → Nat
  deadline : Nat → Nat
  /-- When it began to wait for its response. -/
  armed : Nat → Nat
  capacity : Nat
  /-- The bytes in a child's pipe. -/
  unread : Nat → Nat
  /-- Nobody will read a child's stdin any more. -/
  closed : Nat → Bool

inductive ClockedEvent (Value : Type)
  | call (frame : Frame) (deadline : Nat)
  | shutdown (frame : Frame)
  | act (a : Action Value)
  | childReads (child count : Nat)
  /-- The child closes its stdin, or dies. -/
  | childCloses (child : Nat)
  | tick (millis : Nat)

/-- How long `shutdown` waits for the child, in milliseconds. -/
def SHUTDOWN_DEADLINE : Nat := 500

namespace Clocked

def spawn (Value : Type) (maxRetries capacity : Nat) : Clocked Value where
  state := .spawn Value maxRetries
  now := 0
  begun := fun _ => 0
  deadline := fun _ => 0
  armed := fun _ => 0
  capacity := capacity
  unread := fun _ => 0
  closed := fun _ => false

/-- So many more bytes go into a child's pipe. -/
def Fits (p : Clocked Value) (child count : Nat) : Prop := p.unread child + count ≤ p.capacity

instance (p : Clocked Value) (child count : Nat) : Decidable (p.Fits child count) :=
  inferInstanceAs (Decidable (_ ≤ _))

/-- What the pipes and the clock have to say about a step. -/
def allows (p : Clocked Value) : Action Value → Bool
  | .call _ | .shutdown _ => false
  | .write n count =>
    match p.state.calls n with
    | some ⟨_, .writing child _, _⟩ => !p.closed child && decide (p.Fits child count)
    | _ => false
  | .writeFails n =>
    match p.state.calls n with
    | some ⟨_, .writing child _, _⟩ => p.closed child
    | _ => false
  | .expire n => decide (p.armed n + p.deadline n ≤ p.now)
  | _ => true

/-- The child the supervisor kills in a step. -/
def killed (p : Clocked Value) : Action Value → Option Nat
  | .reap | .halt =>
    match p.state.supervisor with
    | .running child => some child
    | _ => none
  | _ => none

/-- The pipe a step writes to, and how much. -/
def piped (p : Clocked Value) : Action Value → Option (Nat × Nat)
  | .write n count =>
    match p.state.calls n with
    | some ⟨_, .writing child _, _⟩ => some (child, count)
    | _ => none
  | _ => none

/-- A call begins. -/
def start (p : Clocked Value) (state : State Value) (deadline : Nat) : Clocked Value :=
  { p with
    state
    begun := Function.update p.begun p.state.nextId p.now
    deadline := Function.update p.deadline p.state.nextId deadline }

/-- The rest of the sidecar has taken a step. -/
def after (p : Clocked Value) (a : Action Value) (state : State Value) : Clocked Value :=
  { p with
    state
    armed := match a with
      | .flush n => Function.update p.armed n p.now
      | _ => p.armed
    unread := match p.piped a with
      | some (child, count) => Function.update p.unread child (p.unread child + count)
      | none => p.unread
    closed := match p.killed a with
      | some child => Function.update p.closed child true
      | none => p.closed }

def step [Inhabited Value] (p : Clocked Value) : ClockedEvent Value → Option (Clocked Value)
  | .call frame deadline => (p.state.step (.call frame)).map fun state => p.start state deadline
  | .shutdown frame => (p.state.step (.shutdown frame)).map fun state => p.start state SHUTDOWN_DEADLINE
  | .act a => if p.allows a then (p.state.step a).map (p.after a) else none
  | .childReads child count =>
    if count ≤ p.unread child then
      some { p with unread := Function.update p.unread child (p.unread child - count) }
    else none
  | .childCloses child => some { p with closed := Function.update p.closed child true }
  | .tick millis => some { p with now := p.now + millis }

end Clocked

/-- Where each call is. -/
def State.outline (s : State Value) (n : Nat) : Option (Frame × Phase Value) := (s.calls n).map fun c => (c.frame, c.phase)

/-! ## what is asked for -/

namespace Clocked

/-- The time of a call is up, counted from its beginning. -/
def Overdue (p : Clocked Value) (n : Nat) : Prop :=
  (∃ frame phase, p.state.outline n = some (frame, phase) ∧ phase ≠ .cancelled) ∧ p.begun n + p.deadline n ≤ p.now

def Returned (s : State Value) (n : Nat) : Prop := ∃ frame out, s.outline n = some (frame, .returned out)

/-- Not a step of the child, nor of another call. -/
def Alone (n : Nat) : ClockedEvent Value → Prop
  | .call _ _ | .shutdown _ | .childReads _ _ | .childCloses _ => False
  | .tick _ => True
  | .act (.register m) | .act (.lock m) | .act (.write m _) | .act (.writeFails m) | .act (.flush m) | .act (.resolve m)
  | .act (.expire m) | .act (.remove m) => m = n
  | .act (.call _) | .act (.shutdown _) | .act (.cancel _) | .act (.read _ _) | .act (.endReader _) => False
  | .act (.deliver _) | .act .reap | .act .clear | .act (.drain _) | .act .decide | .act (.wake _) | .act .install
  | .act .halt | .act (.shut _) => True

/-- Not a step of the child, and nobody comes or gives up. -/
def Unaided : ClockedEvent Value → Prop
  | .call _ _ | .shutdown _ | .childReads _ _ | .childCloses _ => False
  | .act (.cancel _) | .act (.read _ _) | .act (.endReader _) => False
  | _ => True

variable [Inhabited Value]

/-- Steps of these kinds lead to such a state. -/
def Can (p : Clocked Value) (kind : ClockedEvent Value → Prop) (goal : Clocked Value → Prop) : Prop :=
  ∃ events p', (∀ e ∈ events, kind e) ∧ exec step p events = some p' ∧ goal p'

/-- An overdue call can return without the child and the other calls, and a shutdown whose call
is overdue, or has returned, can complete without the child. -/
structure DeadlinesKept (p : Clocked Value) : Prop where
  calls : ∀ n, p.Overdue n → p.Can (Alone n) fun p' => Returned p'.state n
  shutdowns : ∀ (k : Nat) (d : Shutdown), p.state.shutdowns[k]? = some d → (∀ n, d = .asking n → p.Overdue n) →
    p.Can Unaided fun p' => p'.state.shutdowns[k]? = some .done

/-- The child's reader is at the end of its output. -/
def Ended (p : Clocked Value) (child : Nat) : Prop := (p.state.children child).any (fun c => c.reader = .ended) = true

/-- A shutdown is under way: the token is cancelled, or about to be. -/
def Stopping (p : Clocked Value) : Prop :=
  p.state.cancelled = true ∨ ∃ (k n : Nat), p.state.shutdowns[k]? = some (.asking n) ∧ Returned p.state n

/-- So many bytes can be written to a child, or will fail to be. -/
def Drains (p : Clocked Value) (child count : Nat) : Prop :=
  p.closed child = true ∨ p.Fits child count ∨ p.Ended child ∨ p.Stopping

/-- The call has its frame in the pipe, or gets it there or an error without the child; and the
lock is its own or free. -/
def Unblocked (p : Clocked Value) (n : Nat) : Prop :=
  ∀ frame phase, p.state.outline n = some (frame, phase) →
    (phase = .registering ∨ phase = .locking →
      p.state.lockedBy = none ∧ ∀ child, p.state.process = some child → p.Drains child frame.1.length) ∧
    ∀ child written, phase = .writing child written → p.Drains child (frame.1.length - written)

end Clocked

/-! ## what the parties keep to -/

/-- A child is written to, or about to be. -/
def State.At (s : State Value) (child : Nat) : Prop :=
  s.process = some child ∨ ∃ n frame written, s.outline n = some (frame, .writing child written)

/-- The lock is held by who is in its hold; what is written to is there, and is either closed or
the supervisor's. -/
structure Coherent (s : State Value) (closed : Nat → Bool) : Prop where
  locked : ∀ n, s.lockedBy = some n → ∃ frame phase, s.outline n = some (frame, phase) ∧ phase.holding = true
  held : ∀ n frame phase, s.outline n = some (frame, phase) → phase.holding = true → s.lockedBy = some n
  written : ∀ n frame child written, s.outline n = some (frame, .writing child written) → written < frame.1.length
  there : ∀ child, s.At child ∨ s.supervisor = .spawned child → s.children child ≠ none
  live : ∀ child, s.At child → closed child = true ∨ s.supervisor = .running child
  broken : ∀ child c, s.children child = some c → c.broken = true → closed child = true
  stops : ∀ d ∈ s.shutdowns, (∀ n, d ≠ .asking n) → s.cancelled = true

/-- Nothing but calls, the lock and children changes. -/
structure State.Beside (s s' : State Value) : Prop where
  process : s'.process = s.process
  supervisor : s'.supervisor = s.supervisor
  cancelled : s'.cancelled = s.cancelled
  shutdowns : s'.shutdowns = s.shutdowns

section coherent

variable {s s' : State Value} {closed closed' : Nat → Bool} {n : Nat} {c : Call Value}

theorem outline_of_calls (hc : s.calls n = some c) : s.outline n = some (c.frame, c.phase) := by
  rw [outline, hc]
  rfl

variable {phase : Phase Value}

theorem outline_insert (hcalls : s'.calls = s.calls.insert n { c with phase }) (m : Nat) :
    s'.outline m = if m = n then some (c.frame, phase) else s.outline m := by
  unfold outline
  rw [hcalls, insert_apply]
  split <;> rfl

section

variable (h : Coherent s closed)
include h

theorem Coherent.not_locked (hc : s.calls n = some c) (hfree : c.phase.holding = false) :
    s.lockedBy ≠ some n := by
  intro hlock
  obtain ⟨frame, phase, hout, hholding⟩ := h.locked n hlock
  rw [outline_of_calls hc, Option.some.injEq, Prod.mk.injEq] at hout
  rw [← hout.2, hfree] at hholding
  contradiction

theorem Coherent.moves (hcalls : s'.calls = s.calls.insert n { c with phase })
    (hlock : phase.holding = true ∧ s'.lockedBy = some n ∧ (s.lockedBy = none ∨ s.lockedBy = some n) ∨
      phase.holding = false ∧ s'.lockedBy = if s.lockedBy = some n then none else s.lockedBy)
    (hrest : Beside s s') (hkeep : ∀ child, s.children child ≠ none → s'.children child ≠ none)
    (hbroken : ∀ child c', s'.children child = some c' → c'.broken = true →
      (∃ c, s.children child = some c ∧ c.broken = true) ∨ closed child = true)
    (hwrites : ∀ child written, phase = .writing child written → written < c.frame.1.length ∧ s.At child) :
    Coherent s' closed := by
  have hout := outline_insert hcalls
  have hat : ∀ child, s'.At child → s.At child := by
    rintro child (hproc | ⟨m, frame, written, hm⟩)
    · exact .inl (hrest.process ▸ hproc)
    · rw [hout] at hm
      split at hm
      · rw [Option.some.injEq, Prod.mk.injEq] at hm
        exact (hwrites child written hm.2).2
      · exact .inr ⟨m, frame, written, hm⟩
  refine ⟨fun m hm => ?_, fun m frame p hm hp => ?_, fun m frame child written hm => ?_, fun child hchild => ?_,
    fun child hchild => ?_, fun child c' hc' hb => ?_, fun d hd hnot => ?_⟩
  · rw [hout]
    obtain ⟨hholding, hself, -⟩ | ⟨hfree, hrest⟩ := hlock
    · obtain rfl := Option.mem_unique hself hm
      exact ⟨_, _, if_pos rfl, hholding⟩
    · rw [hrest] at hm
      split at hm
      · contradiction
      · next hne =>
        have hmn : m ≠ n := fun heq => hne (heq ▸ hm)
        rw [if_neg hmn]
        exact h.locked m hm
  · rw [hout] at hm
    split at hm
    · next heq =>
      rw [Option.some.injEq, Prod.mk.injEq] at hm
      obtain ⟨-, hself, -⟩ | ⟨hfree, -⟩ := hlock
      · rw [heq, hself]
      · rw [hm.2, hp] at hfree
        contradiction
    · next hne =>
      have hold := h.held m frame p hm hp
      obtain ⟨-, -, hnone | hn⟩ | ⟨-, hrest⟩ := hlock
      · rw [hnone] at hold
        contradiction
      · rw [hn] at hold
        exact absurd (Option.some.inj hold).symm hne
      · rw [hrest, if_neg, hold]
        rw [hold]
        exact fun heq => hne (Option.some.inj heq)
  · rw [hout] at hm
    split at hm
    · rw [Option.some.injEq, Prod.mk.injEq] at hm
      rw [← hm.1]
      exact (hwrites child written hm.2).1
    · exact h.written m frame child written hm
  · exact hkeep child (h.there child (hchild.imp (hat child) fun hsp => hrest.supervisor ▸ hsp))
  · rw [hrest.supervisor]
    exact h.live child (hat child hchild)
  · obtain ⟨c, hchild, hb⟩ | hclosed := hbroken child c' hc' hb
    · exact h.broken child c hchild hb
    · exact hclosed
  · rw [hrest.cancelled]
    exact h.stops d (hrest.shutdowns ▸ hd) hnot

theorem Coherent.rest (hout : ∀ m, s'.outline m = s.outline m) (hlock : s'.lockedBy = s.lockedBy)
    (hthere : ∀ child, s'.At child ∨ s'.supervisor = .spawned child → s'.children child ≠ none)
    (hlive : ∀ child, s'.At child → closed' child = true ∨ s'.supervisor = .running child)
    (hbroken : ∀ child c, s'.children child = some c → c.broken = true → ∃ c, s.children child = some c ∧ c.broken = true)
    (hclosed : ∀ child, closed child = true → closed' child = true)
    (hstops : ∀ d ∈ s'.shutdowns, (∀ n, d ≠ .asking n) → s'.cancelled = true) :
    Coherent s' closed' where
  locked m hm := by rw [hout]; exact h.locked m (hlock ▸ hm)
  held m frame phase hm hp := by rw [hlock]; exact h.held m frame phase (hout m ▸ hm) hp
  written m frame child written hm := h.written m frame child written (hout m ▸ hm)
  there := hthere
  live := hlive
  broken child c hc hb := by
    obtain ⟨c, hc, hb⟩ := hbroken child c hc hb
    exact hclosed child (h.broken child c hc hb)
  stops := hstops

end

theorem At.of_outline {child : Nat} (hout : ∀ m, s'.outline m = s.outline m) (hprocess : s'.process = s.process) :
    s'.At child ↔ s.At child := by
  unfold State.At
  simp only [hout, hprocess]

end coherent

section steps

variable {s s' : State Value} {closed : Nat → Bool}

theorem outline_map {f : Call Value → Call Value} (hf : ∀ c, (f c).frame = c.frame ∧ (f c).phase = c.phase) {m : Nat}
    (hm : s'.calls m = (s.calls m).map f) : s'.outline m = s.outline m := by
  rw [outline, hm, outline, Option.map_map]
  refine congrArg (fun g => Option.map g (s.calls m)) (funext fun c => ?_)
  exact Prod.ext (hf c).1 (hf c).2

theorem outline_failPending (s : State Value) (m : Nat) : s.failPending.outline m = s.outline m :=
  outline_map (fun c => by split <;> exact ⟨rfl, rfl⟩) rfl

theorem outline_route (s : State Value) (k : Nat) (resp : RpcResponse Value) (m : Nat) :
    (s.route k resp).outline m = s.outline m := by
  unfold State.route
  split
  · exact outline_map (fun c => by split <;> exact ⟨rfl, rfl⟩) rfl
  · rfl

theorem rest_route (s : State Value) (k : Nat) (resp : RpcResponse Value) :
    (s.route k resp).lockedBy = s.lockedBy ∧ (s.route k resp).children = s.children ∧
      Beside s (s.route k resp) := by
  unfold State.route
  split <;> exact ⟨rfl, rfl, rfl, rfl, rfl, rfl⟩

theorem Coherent.same (h : Coherent s closed) (hout : ∀ m, s'.outline m = s.outline m) (hlock : s'.lockedBy = s.lockedBy)
    (hrest : Beside s s') (hkeep : ∀ child, s.children child ≠ none → s'.children child ≠ none)
    (hbroken : ∀ child c, s'.children child = some c → c.broken = true →
      ∃ c, s.children child = some c ∧ c.broken = true) : Coherent s' closed := by
  refine h.rest hout hlock (fun child hchild => ?_) (fun child hchild => ?_) hbroken (fun _ hc => hc) ?_
  · rw [At.of_outline hout hrest.process, hrest.supervisor] at hchild
    exact hkeep child (h.there child hchild)
  · rw [hrest.supervisor]
    exact h.live child ((At.of_outline hout hrest.process).mp hchild)
  · rw [hrest.cancelled, hrest.shutdowns]
    exact h.stops

theorem Coherent.supervises (h : Coherent s closed) {closed' : Nat → Bool} (hout : ∀ m, s'.outline m = s.outline m)
    (hlock : s'.lockedBy = s.lockedBy) (hprocess : s'.process = s.process ∨ s'.process = none)
    (hchildren : s'.children = s.children) (hspawned : ∀ child, s'.supervisor ≠ .spawned child)
    (hkilled : ∀ child, s.supervisor = .running child → closed' child = true)
    (hclosed : ∀ child, closed child = true → closed' child = true) (hcancelled : s'.cancelled = s.cancelled)
    (hshutdowns : s'.shutdowns = s.shutdowns) : Coherent s' closed' := by
  have hat : ∀ child, s'.At child → s.At child := by
    rintro child (hproc | ⟨m, frame, written, hm⟩)
    · obtain hsame | hnone := hprocess
      · exact .inl (hsame ▸ hproc)
      · rw [hnone] at hproc
        contradiction
    · exact .inr ⟨m, frame, written, hout m ▸ hm⟩
  refine h.rest hout hlock (fun child hchild => ?_) (fun child hchild => ?_) (fun child c hc hb => ⟨c, hchildren ▸ hc, hb⟩)
    hclosed ?_
  · rw [hchildren]
    exact h.there child (.inl (hat child (hchild.resolve_right (hspawned child))))
  · exact .inl ((h.live child (hat child hchild)).elim (hclosed child) (hkilled child))
  · rw [hcancelled, hshutdowns]
    exact h.stops

variable {cancelled : Bool} {i : Nat} {d d' : Shutdown} {next : Supervisor}

section

variable (h : Coherent s closed)
include h

theorem Coherent.stops_set (hi : s.shutdowns[i]? = some d)
    (hkeep : s.cancelled = true → cancelled = true) (hfrom : (∀ n, d ≠ .asking n) ∨ cancelled = true) :
    ∀ d'' ∈ s.shutdowns.set i d', (∀ n, d'' ≠ .asking n) → cancelled = true := fun _ _ _ =>
  hfrom.elim (fun hnot => hkeep (h.stops d (List.mem_of_getElem? hi) hnot)) id

theorem Coherent.shuts {handle : Bool} (hi : s.shutdowns[i]? = some d)
    (hkeep : s.cancelled = true → cancelled = true) (hfrom : (∀ n, d ≠ .asking n) ∨ cancelled = true) :
    Coherent { s with cancelled, handle, shutdowns := s.shutdowns.set i d' } closed :=
  h.rest (fun _ => rfl) rfl (fun child hchild => h.there child hchild) (fun child hchild => h.live child hchild)
    (fun _ c hc hb => ⟨c, hc, hb⟩) (fun _ hc => hc) (h.stops_set hi hkeep hfrom)

theorem Coherent.kills {child : Nat} (hrunning : s.supervisor = .running child)
    (hnext : ∀ c, next ≠ .spawned c) : Coherent { s with supervisor := next } (Function.update closed child true) := by
  refine h.supervises (fun _ => rfl) rfl (.inl rfl) rfl hnext (fun child' hchild' => ?_) (fun child' hclosed => ?_) rfl rfl
  · obtain rfl := Supervisor.running.inj (hrunning.symm.trans hchild')
    exact Function.update_self ..
  · rw [Function.update_apply]
    split
    · rfl
    · exact hclosed

theorem Coherent.idles (hidle : ∀ child, s.supervisor ≠ .running child) {attempts : Nat}
    (hnext : ∀ c, next ≠ .spawned c) : Coherent { s with supervisor := next, attempts } closed :=
  h.supervises (fun _ => rfl) rfl (.inl rfl) rfl hnext
    (fun child hchild => absurd hchild (hidle child)) (fun _ hc => hc) rfl rfl

end

end steps

section run

variable {s s' : State Value} {closed : Nat → Bool}

theorem Coherent.start (h : Coherent s closed) (hnew : s.calls s.nextId = none) (frame : Frame) :
    Coherent (s.start frame) closed := by
  refine h.moves (n := s.nextId) (c := ⟨frame, .registering, .unresolved⟩) rfl (.inr ⟨rfl, ?_⟩)
    ⟨rfl, rfl, rfl, rfl⟩ (fun _ hc => hc)
    (fun child c hc hb => .inl ⟨c, hc, hb⟩) nofun
  rw [if_neg]
  · rfl
  · intro hlock
    obtain ⟨frame', phase, hout, -⟩ := h.locked _ hlock
    rw [outline, hnew] at hout
    contradiction

variable {c : Call Value} {n child : Nat} {phase : Phase Value}

theorem Coherent.leaves (h : Coherent s closed) (hto : phase.holding = false)
    (hcalls : s'.calls = s.calls.insert n { c with phase })
    (hlock : s'.lockedBy = if s.lockedBy = some n then none else s.lockedBy)
    (hrest : Beside s s') (hchildren : s'.children = s.children) : Coherent s' closed := by
  refine h.moves hcalls (.inr ⟨hto, hlock⟩) hrest (fun _ hc => hchildren ▸ hc)
    (fun child c hc hb => .inl ⟨c, hchildren ▸ hc, hb⟩) ?_
  rintro child written rfl
  contradiction

theorem Coherent.walks (h : Coherent s closed) (hc : s.calls n = some c)
    (hfrom : c.phase.holding = false) (hto : phase.holding = false)
    (hcalls : s'.calls = s.calls.insert n { c with phase }) (hlock : s'.lockedBy = s.lockedBy)
    (hrest : Beside s s') (hchildren : s'.children = s.children) : Coherent s' closed := by
  refine h.leaves hto hcalls ?_ hrest hchildren
  rw [hlock, if_neg (h.not_locked hc hfrom)]

theorem keeps_setChild {c c' : Child} (hc : s.children child = some c) (ch : Nat) :
    (s.children ch ≠ none → (s.setChild child c').children ch ≠ none) ∧
      (c'.broken = c.broken → ∀ d, (s.setChild child c').children ch = some d → d.broken = true →
        ∃ d, s.children ch = some d ∧ d.broken = true) := by
  simp only [setChild, insert_apply]
  split
  · next heq =>
    subst heq
    refine ⟨fun _ => Option.some_ne_none _, fun hbroken d hd hb => ⟨c, hc, ?_⟩⟩
    rw [← hbroken, Option.some.inj hd]
    exact hb
  · exact ⟨id, fun _ d hd hb => ⟨d, hd, hb⟩⟩

theorem Coherent.reads (h : Coherent s closed) {c : Child} (c' : Child) (hc : s.children child = some c)
    (hbroken : c'.broken = c.broken) : Coherent (s.setChild child c') closed :=
  h.same (fun _ => rfl) rfl ⟨rfl, rfl, rfl, rfl⟩ (fun ch => (keeps_setChild hc ch).1)
    fun ch => (keeps_setChild hc ch).2 hbroken

end run

namespace Clocked

section steps

variable [Inhabited Value] {p p' : Clocked Value} {s' : State Value}

theorem coherent_act {a : Action Value} (h : Coherent p.state p.closed) (hallows : p.allows a = true)
    (hstep : p.state.step a = some s') : Coherent s' (p.after a s').closed := by
  cases moves_of_step hstep with
  | call frame | shutdown frame => contradiction
  | register hc | expire hc | resolve hc | dropped hc =>
    exact h.walks hc rfl rfl rfl rfl ⟨rfl, rfl, rfl, rfl⟩ rfl
  | @lock _ _ frame slot hc hfree hproc =>
    refine h.moves (c := ⟨frame, .locking, slot⟩) rfl (.inl ⟨rfl, rfl, .inl hfree⟩) ⟨rfl, rfl, rfl, rfl⟩ (fun _ hc => hc)
      (fun child c hc hb => .inl ⟨c, hc, hb⟩) ?_
    rintro _ _ ⟨⟩
    exact ⟨List.length_pos_iff.mpr frame.2, .inl hproc⟩
  | @lockCleared _ frame slot hc hfree hproc =>
    exact h.moves (c := ⟨frame, .locking, slot⟩) rfl (.inl ⟨rfl, rfl, .inl hfree⟩) ⟨rfl, rfl, rfl, rfl⟩ (fun _ hc => hc)
      (fun child c hc hb => .inl ⟨c, hc, hb⟩) (by rintro _ _ ⟨⟩)
  | @writePart _ _ child written frame slot _ hc hchild _ _ hpart =>
    have hlock := h.held _ frame _ (outline_of_calls hc) rfl
    refine h.moves (c := ⟨frame, .writing child written, slot⟩) rfl (.inl ⟨rfl, hlock, .inr hlock⟩) ⟨rfl, rfl, rfl, rfl⟩
      (fun ch => (keeps_setChild hchild ch).1) (fun ch d hd hb => .inl ((keeps_setChild hchild ch).2 (by rfl) d hd hb)) ?_
    rintro _ _ ⟨⟩
    exact ⟨hpart, .inr ⟨_, frame, written, outline_of_calls hc⟩⟩
  | @writeAll _ _ child written frame slot _ hc hchild =>
    have hlock := h.held _ frame _ (outline_of_calls hc) rfl
    exact h.moves (c := ⟨frame, .writing child written, slot⟩) rfl (.inl ⟨rfl, hlock, .inr hlock⟩) ⟨rfl, rfl, rfl, rfl⟩
      (fun ch => (keeps_setChild hchild ch).1) (fun ch d hd hb => .inl ((keeps_setChild hchild ch).2 (by rfl) d hd hb))
      (by rintro _ _ ⟨⟩)
  | @writeFails _ child written frame slot _ hc hchild =>
    have hclosed : p.closed child = true := by simpa [allows, hc] using hallows
    have hlock := h.held _ frame _ (outline_of_calls hc) rfl
    refine h.moves (c := ⟨frame, .writing child written, slot⟩) rfl (.inl ⟨rfl, hlock, .inr hlock⟩) ⟨rfl, rfl, rfl, rfl⟩
      (fun ch => (keeps_setChild hchild ch).1) (fun ch d hd hb => ?_) (by rintro _ _ ⟨⟩)
    simp only [State.setPhase, setChild, insert_apply] at hd
    split at hd
    · next heq => exact .inr (heq ▸ hclosed)
    · exact .inl ⟨d, hd, hb⟩
  | flush hc | remove hc | cancel hc => exact h.leaves rfl rfl rfl ⟨rfl, rfl, rfl, rfl⟩ rfl
  | read resp hchild =>
    exact (h.reads ⟨_, _, .holding p.state.frames.length⟩ hchild rfl).same (fun _ => rfl) rfl
      ⟨rfl, rfl, rfl, rfl⟩ (fun _ hc => hc) fun ch c hc hb => ⟨c, hc, hb⟩
  | endReader hchild => exact h.reads _ hchild rfl
  | @deliver child k stdin broken resp hchild hk =>
    obtain ⟨hlock, hchildren, hrest⟩ :=
      rest_route (p.state.setChild child ⟨stdin, broken, .reading⟩) k resp
    exact (h.reads ⟨stdin, broken, .reading⟩ hchild rfl).same (outline_route _ k resp) hlock hrest
      (fun _ hc => hchildren ▸ hc) fun ch c hc hb => ⟨c, hchildren ▸ hc, hb⟩
  | reap hrunning =>
    simp only [after, killed, hrunning]
    exact h.kills hrunning (by rintro _ ⟨⟩)
  | halt hcancelled hlive =>
    obtain ⟨child, hrunning⟩ | hsleeping := hlive
    · simp only [after, killed, hrunning]
      exact h.kills hrunning (by rintro _ ⟨⟩)
    · simp only [after, killed, hsleeping]
      exact h.idles (by rw [hsleeping]; rintro _ ⟨⟩) (by rintro _ ⟨⟩)
  | clear hdying =>
    exact h.supervises (fun _ => rfl) rfl (.inr rfl) rfl (by rintro _ ⟨⟩)
      (fun child hchild => by rw [hdying] at hchild; contradiction)
      (fun _ hc => hc) rfl rfl
  | drain attempts hdraining =>
    exact h.supervises (outline_failPending p.state) rfl (.inl rfl) rfl (by rintro _ ⟨⟩)
      (fun child hchild => by rw [hdraining] at hchild; contradiction) (fun _ hc => hc) rfl rfl
  | giveUp _ hidle | retry _ hidle | wakeFails hidle => exact h.idles (by rw [hidle]; rintro _ ⟨⟩) (by rintro _ ⟨⟩)
  | respawn hsleeping =>
    -- a new child, in nobody's way
    refine h.rest (fun _ => rfl) rfl (fun child hchild => ?_)
      (fun child hchild => .inl ((h.live child hchild).resolve_right ?_))
      (fun child c hc hb => ?_) (fun _ hc => hc) h.stops
    · simp only [setChild, insert_apply]
      split
      · exact Option.some_ne_none _
      · next hne =>
        obtain hat | hspawned := hchild
        · exact h.there child (.inl hat)
        · exact absurd (Supervisor.spawned.inj hspawned).symm hne
    · rw [hsleeping]
      rintro ⟨⟩
    · simp only [setChild, insert_apply] at hc
      split at hc
      · rw [← Option.some.inj hc] at hb
        contradiction
      · exact ⟨c, hc, hb⟩
  | install hspawned =>
    refine h.rest (fun _ => rfl) rfl (fun child hchild => ?_) (fun child hchild => ?_) (fun child c hc hb => ⟨c, hc, hb⟩)
      (fun _ hc => hc) h.stops
    · obtain (hproc | hwriting) | hother := hchild
      · exact h.there child (.inr (Option.some.inj hproc ▸ hspawned))
      · exact h.there child (.inl (.inr hwriting))
      · contradiction
    · obtain hproc | hwriting := hchild
      · exact .inr (congrArg _ (Option.some.inj hproc))
      · exact .inl ((h.live child (.inr hwriting)).resolve_right (by rw [hspawned]; rintro ⟨⟩))
  | asked hi => exact h.shuts hi (fun _ => rfl) (.inr rfl)
  | taken hi | joined hi => exact h.shuts hi id (.inl (by rintro _ ⟨⟩))
  | @cleared i hi =>
    have hat : ∀ child, State.At { p.state with process := none, shutdowns := p.state.shutdowns.set i .draining } child →
        p.state.At child := by
      rintro child (hproc | hwriting)
      · contradiction
      · exact .inr hwriting
    exact h.rest (fun _ => rfl) rfl (fun child hchild => h.there child (hchild.imp_left (hat child)))
      (fun child hchild => h.live child (hat child hchild)) (fun child c hc hb => ⟨c, hc, hb⟩) (fun _ hc => hc)
      (h.stops_set hi id (.inl (by rintro _ ⟨⟩)))
  | @drained i hi =>
    have hat : ∀ child, State.At { p.state.failPending with shutdowns := p.state.shutdowns.set i .done } child ↔
        p.state.At child := fun child => At.of_outline (outline_failPending p.state) rfl
    exact h.rest (outline_failPending p.state) rfl (fun child hchild => h.there child (hchild.imp_left (hat child).mp))
      (fun child hchild => h.live child ((hat child).mp hchild)) (fun child c hc hb => ⟨c, hc, hb⟩) (fun _ hc => hc)
      (h.stops_set hi id (.inl (by rintro _ ⟨⟩)))

end steps

end Clocked

namespace Clocked

section sound

variable [Inhabited Value] {p p' : Clocked Value}

/-- What every reachable state keeps. -/
structure Sound (p : Clocked Value) : Prop where
  inv : Inv p.state
  coherent : Coherent p.state p.closed

theorem step_act {a : Action Value} (h : p.step (.act a) = some p') :
    p.allows a = true ∧ ∃ s', p.state.step a = some s' ∧ p' = p.after a s' := by
  simp only [step] at h
  split at h
  · next hallows =>
    obtain ⟨s', hs', rfl⟩ := Option.map_eq_some_iff.mp h
    exact ⟨hallows, s', hs', rfl⟩
  · contradiction

theorem Sound.step {e : ClockedEvent Value} (h : p.Sound) (hstep : p.step e = some p') : p'.Sound := by
  cases e with
  | call frame deadline =>
    simp only [Clocked.step, Option.map_eq_some_iff] at hstep
    obtain ⟨s', hs', rfl⟩ := hstep
    obtain rfl := Option.some.inj hs'
    exact ⟨h.inv.step hs', h.coherent.start (h.inv.fresh _ (Nat.le_refl _)) frame⟩
  | shutdown frame =>
    simp only [Clocked.step, Option.map_eq_some_iff] at hstep
    obtain ⟨s', hs', rfl⟩ := hstep
    obtain rfl := Option.some.inj hs'
    have hstart := h.coherent.start (h.inv.fresh _ (Nat.le_refl _)) frame
    refine ⟨h.inv.step hs', hstart.rest (fun _ => rfl) rfl (fun child hchild => hstart.there child hchild)
      (fun child hchild => hstart.live child hchild) (fun child c hc hb => ⟨c, hc, hb⟩) (fun _ hc => hc) ?_⟩
    intro d hd hnot
    obtain hold | hnew := List.mem_append.mp hd
    · exact h.coherent.stops d hold hnot
    · exact absurd (List.mem_singleton.mp hnew) (hnot _)
  | act a =>
    obtain ⟨hallows, s', hs', rfl⟩ := step_act hstep
    exact ⟨h.inv.step hs', coherent_act h.coherent hallows hs'⟩
  | childReads child count =>
    simp only [Clocked.step] at hstep
    split at hstep
    · obtain rfl := Option.some.inj hstep
      exact ⟨h.inv, h.coherent⟩
    · contradiction
  | childCloses child =>
    obtain rfl := Option.some.inj hstep
    have hclosed : ∀ child', p.closed child' = true → Function.update p.closed child true child' = true := by
      intro child' hc
      by_cases heq : child' = child
      · rw [heq, Function.update_self]
      · rw [Function.update_of_ne heq]
        exact hc
    exact ⟨h.inv, h.coherent.rest (fun _ => rfl) rfl h.coherent.there
      (fun child' hchild => (h.coherent.live child' hchild).imp_left (hclosed child')) (fun child' c hc hb => ⟨c, hc, hb⟩)
      hclosed h.coherent.stops⟩
  | tick millis =>
    obtain rfl := Option.some.inj hstep
    exact ⟨h.inv, h.coherent⟩

theorem sound_spawn (maxRetries capacity : Nat) : (spawn Value maxRetries capacity).Sound := by
  refine ⟨Inv.spawn maxRetries, nofun, nofun, nofun, fun child hchild => ?_, fun child hchild => ?_,
    fun child c hc hb => ?_, nofun⟩
  · obtain (hproc | ⟨_, _, _, hm⟩) | hspawned := hchild
    · obtain rfl := Option.some.inj hproc
      exact Option.some_ne_none _
    · contradiction
    · contradiction
  · obtain hproc | ⟨_, _, _, hm⟩ := hchild
    · exact .inr (congrArg _ (Option.some.inj hproc))
    · contradiction
  · simp only [spawn, State.spawn, insert_apply] at hc
    split at hc
    · rw [← Option.some.inj hc] at hb
      contradiction
    · contradiction

theorem Sound.exec {events : List (ClockedEvent Value)} (h : p.Sound)
    (hexec : exec Clocked.step p events = some p') : p'.Sound :=
  exec_invariant (fun _ _ _ h hstep => h.step hstep) hexec h

end sound

end Clocked

namespace Clocked

section blocked

variable {p p' : Clocked Value} {n child : Nat}

/-- The steps of the supervisor, the readers and who shuts down. -/
def Service : Action Value → Prop
  | .deliver _ | .reap | .clear | .drain _ | .decide | .wake _ | .install | .halt | .shut _ => True
  | _ => False

/-- The steps of a call. -/
def Own (n : Nat) : Action Value → Prop
  | .register m | .lock m | .write m _ | .writeFails m | .flush m | .resolve m | .expire m | .remove m => m = n
  | _ => False

variable {a : Action Value} {count : Nat} {s' s : State Value}

theorem own_or_service (h : Alone n (.act a)) : Own n a ∨ Service a := by
  cases a <;> first | exact .inl h | exact .inr trivial

theorem clogged_of {count' : Nat} (h : ¬ p.Drains child count) (hclosed : p'.closed child = p.closed child)
    (hcapacity : p'.capacity = p.capacity) (hroom : p.unread child + count ≤ p'.unread child + count')
    (hended : p'.Ended child → p.Ended child) (hstopping : p'.Stopping → p.Stopping) : ¬ p'.Drains child count' := by
  rintro (hc | hfits | he | hs)
  · exact h (.inl (hclosed ▸ hc))
  · refine h (.inr (.inl ?_))
    unfold Fits at hfits ⊢
    omega
  · exact h (.inr (.inr (.inl (hended he))))
  · exact h (.inr (.inr (.inr (hstopping hs))))

theorem stopping_of_insert {c : Call Value} (hcalls : s'.calls = p.state.calls.insert n c)
    (hphase : ∀ out, c.phase ≠ .returned out) (hcancelled : s'.cancelled = p.state.cancelled)
    (hshutdowns : s'.shutdowns = p.state.shutdowns) (h : (p.after a s').Stopping) : p.Stopping := by
  obtain hc | ⟨k, m, hk, frame, out, hm⟩ := h
  · exact .inl (hcancelled ▸ hc)
  · refine .inr ⟨k, m, hshutdowns ▸ hk, frame, out, ?_⟩
    change s'.outline m = _ at hm
    rw [outline_insert hcalls] at hm
    split at hm
    · rw [Option.some.injEq, Prod.mk.injEq] at hm
      exact absurd hm.2 (hphase out)
    · exact hm

theorem outline_eq_some {frame : Frame} {phase : Phase Value} (h : s.outline n = some (frame, phase)) :
    ∃ slot, s.calls n = some ⟨frame, phase, slot⟩ := by
  obtain ⟨c, hc, heq⟩ := Option.map_eq_some_iff.mp h
  obtain ⟨rfl, rfl⟩ := Prod.mk.inj heq
  exact ⟨c.slot, hc⟩

/-- It waits for the lock of another, or for room in a pipe that nobody reads. -/
def Blocked (p : Clocked Value) (n : Nat) : Prop :=
  ∃ frame phase, p.state.outline n = some (frame, phase) ∧
    ((phase = .registering ∨ phase = .locking) ∧
        ((∃ m, m ≠ n ∧ p.state.lockedBy = some m) ∨
          p.state.lockedBy = none ∧ ∃ child, p.state.process = some child ∧ ¬ p.Drains child frame.1.length) ∨
      ∃ child written, phase = .writing child written ∧ ¬ p.Drains child (frame.1.length - written))

theorem Blocked.not_returned (h : p.Blocked n) : ¬ Returned p.state n := by
  rintro ⟨frame', out, hret⟩
  obtain ⟨frame, phase, hout, hwhere⟩ := h
  rw [hret, Option.some.injEq, Prod.mk.injEq] at hout
  obtain ⟨hphase | hphase, -⟩ | ⟨child, written, hphase, -⟩ := hwhere
  · rw [← hout.2] at hphase
    contradiction
  · rw [← hout.2] at hphase
    contradiction
  · rw [← hout.2] at hphase
    contradiction

variable [Inhabited Value]

theorem outline_service (ha : Service a) (hstep : s.step a = some s') :
    (∀ m, s'.outline m = s.outline m) ∧ s'.lockedBy = s.lockedBy := by
  cases moves_of_step hstep with
  | deliver => exact ⟨outline_route _ _ _, (rest_route _ _ _).1⟩
  | drain | drained => exact ⟨outline_failPending s, rfl⟩
  | reap | clear | giveUp | retry | respawn | wakeFails | install | halt | asked | taken | joined | cleared =>
    exact ⟨fun _ => rfl, rfl⟩
  | _ => contradiction

theorem Sound.service_of_clogged (h : p.Sound) (hat : p.state.At child) (hclogged : ¬ p.Drains child count)
    (ha : Service a) (hstep : p.state.step a = some s') : ∃ ch, a = .deliver ch := by
  obtain ⟨hopen, hnot⟩ := not_or.mp hclogged
  obtain ⟨-, hnot⟩ := not_or.mp hnot
  obtain ⟨hreading, hstopping⟩ := not_or.mp hnot
  obtain ⟨hcancelled, hready⟩ := not_or.mp hstopping
  have hrunning : p.state.supervisor = .running child := (h.coherent.live child hat).resolve_left hopen
  have hasks : ∀ {k : Nat} {d : Shutdown}, p.state.shutdowns[k]? = some d → ∃ m, d = .asking m := by
    intro k d hd
    by_contra hnot
    exact hcancelled (h.coherent.stops d (List.mem_of_getElem? hd) fun m heq => hnot ⟨m, heq⟩)
  cases moves_of_step hstep with
  | @deliver ch => exact ⟨ch, rfl⟩
  | reap hreaped hended =>
    obtain rfl := Supervisor.running.inj (hrunning.symm.trans hreaped)
    exact absurd hended hreading
  | halt hhalted => exact absurd hhalted hcancelled
  | asked hd hc => exact absurd ⟨_, _, hd, _, _, outline_of_calls hc⟩ hready
  | taken hd | joined hd | cleared hd | drained hd =>
    obtain ⟨m, heq⟩ := hasks hd
    contradiction
  | clear hother | drain _ hother | giveUp _ hother | retry _ hother | respawn hother | wakeFails hother | install hother =>
    rw [hrunning] at hother
    contradiction
  | _ => contradiction

theorem Sound.blocked_of_not (h : p.Sound) (hnot : ¬ p.Unblocked n) : p.Blocked n := by
  simp only [Unblocked, not_forall] at hnot
  obtain ⟨frame, phase, hout, hnot⟩ := hnot
  refine ⟨frame, phase, hout, ?_⟩
  obtain hnot | hnot := Classical.not_and_iff_not_or_not.mp hnot
  · obtain ⟨hphase, hnot⟩ := Classical.not_imp.mp hnot
    refine .inl ⟨hphase, ?_⟩
    cases hlock : p.state.lockedBy with
    | some m =>
      refine .inl ⟨m, ?_, rfl⟩
      rintro rfl
      obtain ⟨frame', phase', hout', hholding⟩ := h.coherent.locked m hlock
      rw [hout, Option.some.injEq, Prod.mk.injEq] at hout'
      rw [← hout'.2] at hholding
      obtain rfl | rfl := hphase <;> contradiction
    | none =>
      refine .inr ⟨rfl, ?_⟩
      by_contra hnone
      refine hnot ⟨hlock, fun child hchild => ?_⟩
      by_contra hclogged
      exact hnone ⟨child, hchild, hclogged⟩
  · simp only [not_forall] at hnot
    obtain ⟨child, written, hphase, hclogged⟩ := hnot
    exact .inr ⟨child, written, hphase, hclogged⟩

end blocked

section stays

variable [Inhabited Value] {p p' : Clocked Value} {n child : Nat}

variable {a : Action Value} {s' : State Value}

theorem clogged_deliver {ch count : Nat} (hstep : p.state.step (.deliver ch) = some s')
    (h : ¬ p.Drains child count) : ¬ (p.after (.deliver ch) s').Drains child count ∧ s'.process = p.state.process := by
  have hout := (outline_service (a := .deliver ch) trivial hstep).1
  cases moves_of_step hstep with
  | @deliver _ k stdin broken resp hch hk =>
    obtain ⟨-, hchildren, hrest⟩ :=
      rest_route (p.state.setChild ch ⟨stdin, broken, .reading⟩) k resp
    have hended : (p.after (.deliver ch) ((p.state.setChild ch ⟨stdin, broken, .reading⟩).route k resp)).Ended child →
        p.Ended child := by
      intro hended
      unfold Ended after at hended
      rw [hchildren] at hended
      simp only [setChild, insert_apply] at hended
      split at hended
      · contradiction
      · exact hended
    refine ⟨clogged_of h rfl rfl (Nat.le_refl _) hended ?_, hrest.process⟩
    rintro (hc | ⟨j, m, hj, frame, out, hm⟩)
    · exact .inl (hrest.cancelled ▸ hc)
    · exact .inr ⟨j, m, hrest.shutdowns ▸ hj, frame, out, (hout m).symm.trans hm⟩

theorem Blocked.service (hb : p.Blocked n) (h : p.Sound) (ha : Service a)
    (hstep : p.state.step a = some s') : (p.after a s').Blocked n := by
  obtain ⟨frame, phase, hout, hwhere⟩ := hb
  obtain ⟨hsame, hlock⟩ := outline_service ha hstep
  refine ⟨frame, phase, (hsame n).trans hout, ?_⟩
  obtain ⟨hphase, ⟨m, hm, hheld⟩ | ⟨hfree, child, hchild, hclogged⟩⟩ | ⟨child, written, rfl, hclogged⟩ := hwhere
  · exact .inl ⟨hphase, .inl ⟨m, hm, hlock.trans hheld⟩⟩
  · obtain ⟨ch, rfl⟩ := h.service_of_clogged (.inl hchild) hclogged ha hstep
    obtain ⟨hclogged, hprocess⟩ := clogged_deliver hstep hclogged
    exact .inl ⟨hphase, .inr ⟨hlock.trans hfree, child, hprocess.trans hchild, hclogged⟩⟩
  · obtain ⟨ch, rfl⟩ := h.service_of_clogged (.inr ⟨n, frame, written, hout⟩) hclogged ha hstep
    exact .inr ⟨child, written, rfl, (clogged_deliver hstep hclogged).1⟩

theorem Blocked.own (hb : p.Blocked n) (ha : Own n a) (hallows : p.allows a = true)
    (hstep : p.state.step a = some s') : (p.after a s').Blocked n := by
  obtain ⟨frame, phase, hout, hwhere⟩ := hb
  -- the step is one of the phase the call is in
  have hphase : ∀ {m : Nat} {frame' : Frame} {phase' : Phase Value} {slot : Slot}, m = n →
      p.state.calls m = some ⟨frame', phase', slot⟩ → frame' = frame ∧ phase' = phase := by
    rintro m frame' phase' slot rfl hc
    rw [outline_of_calls hc, Option.some.injEq] at hout
    exact Prod.mk.inj hout
  cases moves_of_step hstep with
  | register hc =>
    obtain ⟨rfl, rfl⟩ := hphase ha hc
    obtain rfl : n = _ := Eq.symm ha
    obtain ⟨-, hlock⟩ | ⟨child, written, hwrites, -⟩ := hwhere
    · refine ⟨_, .locking, (outline_insert rfl n).trans (if_pos rfl), .inl ⟨.inr rfl, ?_⟩⟩
      obtain hheld | ⟨hfree, child, hchild, hclogged⟩ := hlock
      · exact .inl hheld
      · exact .inr ⟨hfree, child, hchild, clogged_of hclogged rfl rfl (Nat.le_refl _) id
          (stopping_of_insert rfl nofun rfl rfl)⟩
    · contradiction
  | @lock _ child _ _ hc hfree hproc =>
    obtain ⟨rfl, rfl⟩ := hphase ha hc
    obtain rfl : n = _ := Eq.symm ha
    obtain ⟨-, ⟨m, -, hheld⟩ | ⟨-, child', hchild', hclogged⟩⟩ | ⟨_, written, hwrites, -⟩ := hwhere
    · rw [hfree] at hheld
      contradiction
    · obtain rfl := Option.mem_unique hproc hchild'
      exact ⟨_, .writing child 0, (outline_insert rfl n).trans (if_pos rfl), .inr ⟨child, 0, rfl,
        clogged_of hclogged rfl rfl (Nat.le_refl _) id (stopping_of_insert rfl nofun rfl rfl)⟩⟩
    · contradiction
  | @writePart _ count child written _ _ _ hc hchild _ _ hpart =>
    obtain ⟨rfl, rfl⟩ := hphase ha hc
    obtain rfl : n = _ := Eq.symm ha
    obtain ⟨hnot | hnot, -⟩ | ⟨child', written', hwrites, hclogged⟩ := hwhere
    · contradiction
    · contradiction
    · obtain ⟨rfl, rfl⟩ := Phase.writing.inj hwrites
      refine ⟨_, .writing child (written + count), (outline_insert rfl n).trans (if_pos rfl),
        .inr ⟨child, written + count, rfl, ?_⟩⟩
      refine clogged_of hclogged rfl rfl ?_ (fun hended => ?_) (stopping_of_insert rfl nofun rfl rfl)
      · simp only [after, piped, hc, Function.update_self]
        omega
      · simpa [Ended, after, State.setPhase, setChild, hchild] using hended
  | @writeAll _ count child written frame _ _ hc hchild _ _ hall =>
    obtain ⟨rfl, rfl⟩ := hphase ha hc
    obtain ⟨hnot | hnot, -⟩ | ⟨child', written', hwrites, hclogged⟩ := hwhere
    · contradiction
    · contradiction
    · -- there is no room for all of it
      obtain ⟨rfl, rfl⟩ := Phase.writing.inj hwrites
      refine absurd (.inr (.inl ?_)) hclogged
      have hboth : p.closed child = false ∧ p.Fits child count := by simpa [allows, hc] using hallows
      rw [← hall, Nat.add_sub_cancel_left]
      exact hboth.2
  | @writeFails _ child written _ _ _ hc =>
    obtain ⟨rfl, rfl⟩ := hphase ha hc
    obtain ⟨hnot | hnot, -⟩ | ⟨child', written', hwrites, hclogged⟩ := hwhere
    · contradiction
    · contradiction
    · obtain ⟨rfl, rfl⟩ := Phase.writing.inj hwrites
      exact absurd (.inl (by simpa [allows, hc] using hallows)) hclogged
  | lockCleared hc hfree hproc =>
    obtain ⟨rfl, rfl⟩ := hphase ha hc
    obtain ⟨-, ⟨m, -, hheld⟩ | ⟨-, child', hchild', -⟩⟩ | ⟨_, written, hwrites, -⟩ := hwhere
    · rw [hfree] at hheld
      contradiction
    · rw [hproc] at hchild'
      contradiction
    · contradiction
  | flush hc | resolve hc | dropped hc | expire hc | remove hc =>
    obtain ⟨rfl, rfl⟩ := hphase ha hc
    obtain ⟨hnot | hnot, -⟩ | ⟨_, _, hnot, -⟩ := hwhere <;> contradiction
  | _ => contradiction

end stays

section runs

variable [Inhabited Value] {p p' : Clocked Value} {n : Nat}

variable {goal' : Clocked Value → Prop} {e : ClockedEvent Value}

theorem Blocked.step (hb : p.Blocked n) (h : p.Sound) (halone : Alone n e) (hstep : p.step e = some p') :
    p'.Blocked n := by
  cases e with
  | act a =>
    obtain ⟨hallows, s', hs', rfl⟩ := step_act hstep
    obtain hown | hservice := own_or_service halone
    · exact hb.own hown hallows hs'
    · exact hb.service h hservice hs'
  | tick millis =>
    obtain rfl := Option.some.inj hstep
    exact hb
  | _ => contradiction

theorem Blocked.not_can (hb : p.Blocked n) (h : p.Sound) : ¬ p.Can (Alone n) fun p' => Returned p'.state n := by
  rintro ⟨events, p', halone, hexec, hreturned⟩
  induction events generalizing p with
  | nil =>
    obtain rfl := Option.some.inj hexec
    exact hb.not_returned hreturned
  | cons e events ih =>
    obtain ⟨p₁, hstep, hrest⟩ := Option.bind_eq_some_iff.mp hexec
    obtain ⟨he, hevents⟩ := List.forall_mem_cons.mp halone
    exact ih (hb.step h he hstep) (h.step hstep) hevents hrest

variable {kind : ClockedEvent Value → Prop} {goal : Clocked Value → Prop}

theorem Can.here (h : goal p) : p.Can kind goal := ⟨[], p, nofun, rfl, h⟩

theorem Can.event (he : kind e) (hstep : p.step e = some p') (h : p'.Can kind goal) : p.Can kind goal := by
  obtain ⟨events, p'', hevents, hexec, hgoal⟩ := h
  refine ⟨e :: events, p'', List.forall_mem_cons.mpr ⟨he, hevents⟩, ?_, hgoal⟩
  rw [Lib.exec, hstep]
  exact hexec

theorem Can.act {a : Action Value} (ha : kind (.act a)) (hallows : p.allows a = true) {s' : State Value}
    (hstep : p.state.step a = some s') (h : (p.after a s').Can kind goal) : p.Can kind goal := by
  refine h.event ha ?_
  rw [Clocked.step, if_pos hallows, hstep]
  rfl

theorem Can.mono (h : p.Can kind goal) (hgoal : ∀ p', goal p' → goal' p') : p.Can kind goal' := by
  obtain ⟨events, p', hevents, hexec, hp'⟩ := h
  exact ⟨events, p', hevents, hexec, hgoal p' hp'⟩

theorem Can.trans (h : p.Can kind goal) (hsound : p.Sound)
    (hrest : ∀ p', p'.Sound → goal p' → p'.Can kind goal') : p.Can kind goal' := by
  obtain ⟨events, p', hevents, hexec, hgoal⟩ := h
  obtain ⟨events', p'', hevents', hexec', hgoal'⟩ := hrest p' (hsound.exec hexec) hgoal
  refine ⟨events ++ events', p'', fun e he => ?_, ?_, hgoal'⟩
  · exact (List.mem_append.mp he).elim (hevents e) (hevents' e)
  · rw [exec_append, hexec]
    exact hexec'

/-! ### how a call returns -/

theorem returns_of_removing (frame : Frame) (out : Outcome Value) (holding : Bool) (slot : Slot)
    (hc : p.state.calls n = some ⟨frame, .removing out holding, slot⟩) : p.Can (Alone n) fun p' => Returned p'.state n := by
  refine Can.act (a := .remove n) rfl rfl (by simp only [State.step, hc]; rfl) (.here ⟨frame, out, ?_⟩)
  exact (outline_insert (c := ⟨frame, .removing out holding, slot⟩) rfl n).trans (if_pos rfl)

theorem returns_of_waiting (h : p.Sound) (frame : Frame) (slot : Slot)
    (hc : p.state.calls n = some ⟨frame, .waiting, slot⟩) :
    p.Can (Alone n) fun p' => Returned p'.state n := by
  cases slot with
  | sent k =>
    obtain ⟨resp, hk, -⟩ := h.inv.sent n _ k hc rfl
    refine Can.act (a := .resolve n) rfl rfl (by simp only [State.step, hc, hk]; rfl) (.here ⟨frame, resp.outcome, ?_⟩)
    exact (outline_insert (c := ⟨frame, .waiting, .sent k⟩) rfl n).trans (if_pos rfl)
  | dropped =>
    refine Can.act (a := .resolve n) rfl rfl (by simp only [State.step, hc]; rfl) ?_
    exact returns_of_removing frame .closed false .dropped (insert_self ..)
  | unresolved =>
    -- its time comes
    refine Can.event (e := .tick (p.armed n + p.deadline n)) trivial rfl ?_
    refine Can.act (a := .expire n) rfl (decide_eq_true (Nat.le_add_left _ _)) (by simp only [State.step, hc]; rfl) ?_
    exact returns_of_removing frame .timeout false .unresolved (insert_self ..)

theorem returns_of_flushing (h : p.Sound) (frame : Frame) (slot : Slot)
    (hc : p.state.calls n = some ⟨frame, .flushing, slot⟩) : p.Can (Alone n) fun p' => Returned p'.state n := by
  have hstep : p.state.step (.flush n) = some ((p.state.setPhase n ⟨frame, .flushing, slot⟩ .waiting).release n) := by
    simp only [State.step, hc]
  refine Can.act (a := .flush n) rfl rfl hstep ?_
  exact returns_of_waiting ⟨h.inv.step hstep, coherent_act h.coherent rfl hstep⟩ frame slot (insert_self ..)

end runs

section progress

variable {p p' : Clocked Value} {n child : Nat} {kind : ClockedEvent Value → Prop}

theorem Drains.of_insert {a : Action Value} {s' : State Value} {c : Call Value} {phase : Phase Value} {count : Nat}
    (h : p.Drains child count) (hc : p.state.calls n = some c) (hreturned : ∀ out, c.phase ≠ .returned out)
    (hcalls : s'.calls = p.state.calls.insert n { c with phase }) (hchildren : s'.children = p.state.children)
    (hcancelled : s'.cancelled = p.state.cancelled) (hshutdowns : s'.shutdowns = p.state.shutdowns)
    (hclosed : (p.after a s').closed = p.closed) (hunread : (p.after a s').unread = p.unread) :
    (p.after a s').Drains child count := by
  obtain hc' | hfits | hended | htoken | ⟨k, m, hk, frame, out, hm⟩ := h
  · exact .inl (hclosed ▸ hc')
  · refine .inr (.inl ?_)
    unfold Fits
    rw [hunread]
    exact hfits
  · refine .inr (.inr (.inl ?_))
    unfold Ended after
    rw [hchildren]
    exact hended
  · exact .inr (.inr (.inr (.inl (hcancelled.trans htoken))))
  · refine .inr (.inr (.inr (.inr ⟨k, m, hshutdowns ▸ hk, frame, out, ?_⟩)))
    refine (outline_insert hcalls m).trans ?_
    rw [if_neg]
    · exact hm
    · rintro rfl
      rw [outline_of_calls hc, Option.some.injEq, Prod.mk.injEq] at hm
      exact hreturned out hm.2

variable [Inhabited Value]

theorem closes_of_cancelled (h : p.Sound) (hat : p.state.At child) (hcancelled : p.state.cancelled = true)
    (hkind : ∀ a, Service a → kind (.act a)) :
    p.Can kind fun p' => p'.closed child = true ∧ p'.state.calls = p.state.calls ∧ p'.state.lockedBy = p.state.lockedBy ∧
      p'.state.cancelled = true ∧ p'.state.shutdowns = p.state.shutdowns := by
  obtain hclosed | hrunning := h.coherent.live child hat
  · exact .here ⟨hclosed, rfl, rfl, hcancelled, rfl⟩
  · have hstep : p.state.step .halt = some { p.state with supervisor := .finished } := by
      simp only [State.step, hcancelled, hrunning, if_true]
    refine Can.act (a := .halt) (hkind _ trivial) rfl hstep (.here ⟨?_, rfl, rfl, hcancelled, rfl⟩)
    simp only [after, killed, hrunning, Function.update_self]

theorem closes_of_doomed (h : p.Sound) (hat : p.state.At child) (hdoomed : p.Ended child ∨ p.Stopping)
    (hkind : ∀ a, Service a → kind (.act a)) :
    p.Can kind fun p' => p'.closed child = true ∧ p'.state.calls = p.state.calls := by
  cases hcancelled : p.state.cancelled with
  | true => exact (closes_of_cancelled h hat hcancelled hkind).mono fun _ hgoal => ⟨hgoal.1, hgoal.2.1⟩
  | false =>
    obtain hclosed | hrunning := h.coherent.live child hat
    · exact .here ⟨hclosed, rfl⟩
    · obtain hended | hstopping := hdoomed
      · -- the supervisor has its reader's end to see
        have hstep : p.state.step .reap = some { p.state with supervisor := .dying } := by
          simp only [State.step, hrunning]
          exact if_pos ⟨hcancelled, hended⟩
        refine Can.act (a := .reap) (hkind _ trivial) rfl hstep (.here ⟨?_, rfl⟩)
        simp only [after, killed, hrunning, Function.update_self]
      · -- the shutdown cancels the token first
        obtain ⟨k, m, hk, frame, out, hm⟩ := hstopping.resolve_left (by rw [hcancelled]; exact Bool.false_ne_true)
        obtain ⟨slot, hm⟩ := outline_eq_some hm
        have hstep : p.state.step (.shut k) =
            some { p.state with cancelled := true, shutdowns := p.state.shutdowns.set k .taking } := by
          simp only [State.step, hk, Option.bind_some, State.shutStep, hm]
        refine Can.act (a := .shut k) (hkind _ trivial) rfl hstep ?_
        refine Can.mono (closes_of_cancelled ?_ hat rfl hkind) fun _ hgoal => ⟨hgoal.1, hgoal.2.1⟩
        exact ⟨h.inv.step hstep, coherent_act h.coherent rfl hstep⟩

variable {frame : Frame} {written : Nat} {slot : Slot}

section

variable (h : p.Sound)
include h

theorem returns_of_closed
    (hc : p.state.calls n = some ⟨frame, .writing child written, slot⟩) (hclosed : p.closed child = true) :
    p.Can (Alone n) fun p' => Returned p'.state n := by
  obtain ⟨record, hchild⟩ := Option.ne_none_iff_exists'.mp
    (h.coherent.there child (.inl (.inr ⟨n, frame, written, outline_of_calls hc⟩)))
  refine Can.act (a := .writeFails n) rfl (by simp only [allows, hc]; exact hclosed)
    (by simp only [State.step, hc, hchild]; rfl) ?_
  exact returns_of_removing frame .io true slot (insert_self ..)

theorem returns_of_writing (frame : Frame) (slot : Slot)
    (hc : p.state.calls n = some ⟨frame, .writing child written, slot⟩)
    (hdrains : p.Drains child (frame.1.length - written)) :
    p.Can (Alone n) fun p' => Returned p'.state n := by
  have hout := outline_of_calls hc
  have hat : p.state.At child := .inr ⟨n, frame, written, hout⟩
  cases hopen : p.closed child with
  | true => exact returns_of_closed h hc hopen
  | false =>
    obtain hclosed | hfits | hdoomed := hdrains
    · rw [hopen] at hclosed
      contradiction
    · obtain ⟨record, hchild⟩ := Option.ne_none_iff_exists'.mp (h.coherent.there child (.inl hat))
      have hbroken : record.broken = false := by
        cases hb : record.broken with
        | false => rfl
        | true =>
          rw [h.coherent.broken child record hchild hb] at hopen
          contradiction
      have hlt := h.coherent.written n frame child written hout
      have hwhole : written + (frame.1.length - written) = frame.1.length := Nat.add_sub_cancel' (Nat.le_of_lt hlt)
      have hcount : record.broken = false ∧ 0 < frame.1.length - written ∧
          written + (frame.1.length - written) ≤ frame.1.length :=
        ⟨hbroken, Nat.sub_pos_of_lt hlt, Nat.le_of_eq hwhole⟩
      have hallows : p.allows (.write n (frame.1.length - written)) = true := by
        simp only [allows, hc, hopen, decide_eq_true hfits]
        rfl
      have hstep : p.state.step (.write n (frame.1.length - written)) =
          some ((p.state.setChild child
            { record with stdin := record.stdin ++ slice frame.1 written (frame.1.length - written) }).setPhase
            n ⟨frame, .writing child written, slot⟩ .flushing) := by
        simp only [State.step, hc, hchild]
        rw [if_pos hcount, if_pos hwhole]
      refine Can.act (a := .write n (frame.1.length - written)) rfl hallows hstep ?_
      exact returns_of_flushing ⟨h.inv.step hstep, coherent_act h.coherent hallows hstep⟩ frame slot
        (insert_self ..)
    · refine (closes_of_doomed h hat hdoomed (fun a ha => ?_ :
        ∀ a, Service a → Alone n (.act a))).trans h fun p' hp' hclosed => ?_
      · cases a <;> trivial
      · exact returns_of_closed hp' (hclosed.2.symm ▸ hc) hclosed.1

theorem returns_of_locking (frame : Frame) (slot : Slot) (hc : p.state.calls n = some ⟨frame, .locking, slot⟩)
    (hfree : p.state.lockedBy = none) (hdrains : ∀ child, p.state.process = some child → p.Drains child frame.1.length) :
    p.Can (Alone n) fun p' => Returned p'.state n := by
  cases hproc : p.state.process with
  | none =>
    refine Can.act (a := .lock n) rfl rfl (by simp only [State.step, hc, hfree, hproc, if_true]; rfl) ?_
    exact returns_of_removing frame .closed true slot (insert_self ..)
  | some child =>
    have hstep : p.state.step (.lock n) =
        some { p.state.setPhase n ⟨frame, .locking, slot⟩ (.writing child 0) with lockedBy := some n } := by
      simp only [State.step, hc, hfree, hproc, if_true]
    refine Can.act (a := .lock n) rfl rfl hstep ?_
    exact returns_of_writing ⟨h.inv.step hstep, coherent_act h.coherent rfl hstep⟩ frame slot
      (insert_self ..) ((hdrains child hproc).of_insert hc (by rintro _ ⟨⟩) rfl rfl rfl rfl rfl rfl)

theorem returns_of_registering
    (hc : p.state.calls n = some ⟨frame, .registering, slot⟩) (hfree : p.state.lockedBy = none)
    (hdrains : ∀ child, p.state.process = some child → p.Drains child frame.1.length) :
    p.Can (Alone n) fun p' => Returned p'.state n := by
  have hstep : p.state.step (.register n) = some { p.state.setPhase n ⟨frame, .registering, slot⟩ .locking with
      pending := p.state.pending.insert n n } := by
    simp only [State.step, hc]
  refine Can.act (a := .register n) rfl rfl hstep ?_
  exact returns_of_locking ⟨h.inv.step hstep, coherent_act h.coherent rfl hstep⟩ frame slot
    (insert_self ..) hfree
    fun child hchild => (hdrains child hchild).of_insert hc (by rintro _ ⟨⟩) rfl rfl rfl rfl rfl rfl

theorem Sound.returns (hthere : ∃ frame phase, p.state.outline n = some (frame, phase) ∧ phase ≠ .cancelled)
    (hfree : p.Unblocked n) : p.Can (Alone n) fun p' => Returned p'.state n := by
  obtain ⟨frame, phase, hout, hphase⟩ := hthere
  obtain ⟨slot, hc⟩ := outline_eq_some hout
  obtain ⟨hlock, hwrite⟩ := hfree frame phase hout
  cases phase with
  | registering =>
    obtain ⟨hnone, hdrains⟩ := hlock (.inl rfl)
    exact returns_of_registering h hc hnone hdrains
  | locking =>
    obtain ⟨hnone, hdrains⟩ := hlock (.inr rfl)
    exact returns_of_locking h _ _ hc hnone hdrains
  | writing child written => exact returns_of_writing h _ _ hc (hwrite child written rfl)
  | flushing => exact returns_of_flushing h _ _ hc
  | waiting => exact returns_of_waiting h _ _ hc
  | removing out holding => exact returns_of_removing _ _ _ _ hc
  | returned out => exact .here ⟨frame, out, hout⟩
  | cancelled => contradiction

end

end progress

/-! ### how a shutdown completes -/

section completes

variable [Inhabited Value] {p p' : Clocked Value} {k : Nat}

/-- The token is cancelled, nobody has the lock and the shutdowns are where they were. -/
structure Idle (p p' : Clocked Value) : Prop where
  free : p'.state.lockedBy = none
  cancelled : p'.state.cancelled = true
  shutdowns : p'.state.shutdowns = p.state.shutdowns

variable {n : Nat} {s' : State Value}

theorem frees_of_removing {frame : Frame} (out : Outcome Value) {slot : Slot}
    (hc : p.state.calls n = some ⟨frame, .removing out true, slot⟩) (hlock : p.state.lockedBy = some n)
    (hcancelled : p.state.cancelled = true) : p.Can Unaided (Idle p) := by
  have hstep : p.state.step (.remove n) =
      some { (p.state.setPhase n ⟨frame, .removing out true, slot⟩ (.returned out)).release n with
        pending := p.state.pending.erase n } := by
    simp only [State.step, hc]
  refine Can.act (a := .remove n) trivial rfl hstep (.here ⟨?_, hcancelled, rfl⟩)
  show (if p.state.lockedBy = some n then none else p.state.lockedBy) = none
  rw [if_pos hlock]

theorem frees_of_cancelled (h : p.Sound) (hcancelled : p.state.cancelled = true) : p.Can Unaided (Idle p) := by
  cases hlock : p.state.lockedBy with
  | none => exact .here ⟨hlock, hcancelled, rfl⟩
  | some n =>
    obtain ⟨frame, phase, hout, hholding⟩ := h.coherent.locked n hlock
    obtain ⟨slot, hc⟩ := outline_eq_some hout
    cases phase with
    | writing child written =>
      have hat : p.state.At child := .inr ⟨n, frame, written, hout⟩
      refine (closes_of_cancelled h hat hcancelled (fun a ha => ?_ :
        ∀ a, Service a → Unaided (.act a))).trans h fun p₁ h₁ hgoal => ?_
      · cases a <;> trivial
      · obtain ⟨hclosed, hcalls, hlocked, hcancelled, hshutdowns⟩ := hgoal
        rw [← hcalls] at hc
        obtain ⟨record, hchild⟩ := Option.ne_none_iff_exists'.mp
          (h₁.coherent.there child (.inl (.inr ⟨n, frame, written, outline_of_calls hc⟩)))
        have hstep : p₁.state.step (.writeFails n) =
            some ((p₁.state.setChild child { record with broken := true }).setPhase n ⟨frame, .writing child written, slot⟩
              (.removing .io true)) := by
          simp only [State.step, hc, hchild]
        refine Can.act (a := .writeFails n) trivial (by simp only [allows, hc]; exact hclosed) hstep ?_
        refine Can.mono (frees_of_removing (n := n) .io (insert_self ..) (hlocked.trans hlock) hcancelled)
          fun p₂ hidle => ?_
        exact ⟨hidle.free, hidle.cancelled, hidle.shutdowns.trans hshutdowns⟩
    | flushing =>
      have hstep : p.state.step (.flush n) = some ((p.state.setPhase n ⟨frame, .flushing, slot⟩ .waiting).release n) := by
        simp only [State.step, hc]
      refine Can.act (a := .flush n) trivial rfl hstep (.here ⟨?_, hcancelled, rfl⟩)
      show (if p.state.lockedBy = some n then none else p.state.lockedBy) = none
      rw [if_pos hlock]
    | removing out holding =>
      cases holding with
      | true => exact frees_of_removing _ hc hlock hcancelled
      | false => contradiction
    | registering | locking | waiting | returned out | cancelled => contradiction

/-- And the supervisor has ended. -/
structure Settled (p p' : Clocked Value) : Prop extends Idle p p' where
  finished : p'.state.supervisor = .finished

theorem Settled.of_step {a : Action Value} (hstep : p.state.step a = some s') (ha : Unaided (.act a))
    (hallows : p.allows a = true) (hshutdowns : s'.shutdowns = p.state.shutdowns)
    (h : (p.after a s').Can Unaided (Settled (p.after a s'))) : p.Can Unaided (Settled p) :=
  Can.act ha hallows hstep (h.mono fun _ hsettled => { hsettled with shutdowns := hsettled.shutdowns.trans hshutdowns })

section

variable (hidle : Idle p p)
include hidle

theorem settles_of_live (hlive : (∃ child, p.state.supervisor = .running child) ∨ p.state.supervisor = .sleeping) :
    p.Can Unaided (Settled p) := by
  have hstep : p.state.step .halt = some { p.state with supervisor := .finished } := by
    obtain ⟨child, hlive⟩ | hlive := hlive <;> simp only [State.step, hidle.cancelled, hlive, if_true]
  exact Settled.of_step hstep trivial rfl rfl (.here ⟨⟨hidle.free, hidle.cancelled, rfl⟩, rfl⟩)

theorem settles_of_deciding (hdeciding : p.state.supervisor = .deciding) : p.Can Unaided (Settled p) := by
  have hstep : p.state.step .decide = some (if p.state.maxRetries = 0 then { p.state with supervisor := .finished }
      else if p.state.maxRetries < p.state.attempts + 1 then
        { p.state with attempts := p.state.attempts + 1, supervisor := .finished }
      else { p.state with attempts := p.state.attempts + 1, supervisor := .sleeping }) := by
    simp only [State.step, hdeciding, if_true]
  split at hstep
  · exact Settled.of_step hstep trivial rfl rfl (.here ⟨⟨hidle.free, hidle.cancelled, rfl⟩, rfl⟩)
  · split at hstep
    · exact Settled.of_step hstep trivial rfl rfl (.here ⟨⟨hidle.free, hidle.cancelled, rfl⟩, rfl⟩)
    · exact Settled.of_step hstep trivial rfl rfl (settles_of_live ⟨hidle.free, hidle.cancelled, rfl⟩ (.inr rfl))

theorem settles_of_draining (hdraining : p.state.supervisor = .draining) : p.Can Unaided (Settled p) := by
  have hstep : p.state.step (.drain false) = some { p.state.failPending with
      supervisor := .deciding
      attempts := p.state.attempts } := by
    simp only [State.step, hdraining, if_true, Bool.false_eq_true, if_false]
  exact Settled.of_step hstep trivial rfl rfl (settles_of_deciding ⟨hidle.free, hidle.cancelled, rfl⟩ rfl)

theorem settles_of_idle : p.Can Unaided (Settled p) := by
  cases hsupervisor : p.state.supervisor with
  | running child => exact settles_of_live hidle (.inl ⟨child, hsupervisor⟩)
  | sleeping => exact settles_of_live hidle (.inr hsupervisor)
  | finished => exact .here ⟨hidle, hsupervisor⟩
  | deciding => exact settles_of_deciding hidle hsupervisor
  | draining => exact settles_of_draining hidle hsupervisor
  | dying =>
    have hstep : p.state.step .clear = some { p.state with process := none, supervisor := .draining } := by
      simp only [State.step, hsupervisor, hidle.free, and_self, if_true]
    exact Settled.of_step hstep trivial rfl rfl (settles_of_draining ⟨hidle.free, hidle.cancelled, rfl⟩ rfl)
  | spawned child =>
    have hstep : p.state.step .install = some { p.state with process := some child, supervisor := .running child } := by
      simp only [State.step, hsupervisor, hidle.free, if_true]
    exact Settled.of_step hstep trivial rfl rfl (settles_of_live ⟨hidle.free, hidle.cancelled, rfl⟩ (.inl ⟨child, rfl⟩))

end

variable {d : Shutdown}

theorem getElem?_set_shutdown {l : List Shutdown} (hd : l[k]? = some d) (d' : Shutdown) : (l.set k d')[k]? = some d' :=
  List.getElem?_set_self (List.getElem?_eq_some_iff.mp hd).1

theorem Can.shut {goal : Clocked Value → Prop} (hd : p.state.shutdowns[k]? = some d)
    (hstep : p.state.shutStep k d = some s') (h : (p.after (.shut k) s').Can Unaided goal) : p.Can Unaided goal := by
  refine Can.act (a := .shut k) trivial rfl ?_ h
  show (p.state.shutdowns[k]?).bind (p.state.shutStep k) = _
  rw [hd]
  exact hstep

theorem completes_of_settled (hsettled : Settled p p) (hd : p.state.shutdowns[k]? = some d) (hnot : ∀ n, d ≠ .asking n) :
    p.Can Unaided fun p' => p'.state.shutdowns[k]? = some .done := by
  have hdraining : ∀ p₁ : Clocked Value, p₁.state.shutdowns[k]? = some .draining →
      p₁.Can Unaided fun p' => p'.state.shutdowns[k]? = some .done := fun p₁ hd₁ =>
    Can.shut hd₁ rfl (.here (getElem?_set_shutdown hd₁ .done))
  have hclearing : ∀ p₁ : Clocked Value, p₁.state.lockedBy = none → p₁.state.shutdowns[k]? = some .clearing →
      p₁.Can Unaided fun p' => p'.state.shutdowns[k]? = some .done := fun p₁ hfree hd₁ =>
    Can.shut hd₁ (if_pos hfree) (hdraining _ (getElem?_set_shutdown hd₁ .draining))
  have hjoining : ∀ (p₁ : Clocked Value) (handle : Bool), Settled p₁ p₁ → p₁.state.shutdowns[k]? = some (.joining handle) →
      p₁.Can Unaided fun p' => p'.state.shutdowns[k]? = some .done := fun p₁ _ hs hd₁ =>
    Can.shut hd₁ (if_pos (.inr hs.finished)) (hclearing _ hs.free (getElem?_set_shutdown hd₁ .clearing))
  cases d with
  | asking n => exact absurd rfl (hnot n)
  | taking =>
    refine Can.shut hd rfl (hjoining _ p.state.handle ?_ (getElem?_set_shutdown hd _))
    exact ⟨⟨hsettled.free, hsettled.cancelled, rfl⟩, hsettled.finished⟩
  | joining handle => exact hjoining p handle hsettled hd
  | clearing => exact hclearing p hsettled.free hd
  | draining => exact hdraining p hd
  | done => exact .here hd

theorem completes_of_cancelled (h : p.Sound) (hcancelled : p.state.cancelled = true) (hd : p.state.shutdowns[k]? = some d)
    (hnot : ∀ n, d ≠ .asking n) : p.Can Unaided fun p' => p'.state.shutdowns[k]? = some .done := by
  refine (frees_of_cancelled h hcancelled).trans h fun p₁ h₁ hidle => ?_
  refine (settles_of_idle ⟨hidle.free, hidle.cancelled, rfl⟩).trans h₁ fun p₂ _ hsettled => ?_
  refine completes_of_settled ⟨⟨hsettled.free, hsettled.cancelled, rfl⟩, hsettled.finished⟩ ?_ hnot
  rw [hsettled.shutdowns, hidle.shutdowns]
  exact hd

theorem completes_of_returned (h : p.Sound) (hd : p.state.shutdowns[k]? = some (.asking n))
    (hreturned : Returned p.state n) :
    p.Can Unaided fun p' => p'.state.shutdowns[k]? = some .done := by
  obtain ⟨frame, out, hm⟩ := hreturned
  obtain ⟨slot, hm⟩ := outline_eq_some hm
  have hstep : p.state.shutStep k (.asking n) =
      some { p.state with cancelled := true, shutdowns := p.state.shutdowns.set k .taking } := by
    simp only [State.shutStep, hm]
  have hwhole : p.state.step (.shut k) = p.state.shutStep k (.asking n) := by simp only [State.step, hd, Option.bind_some]
  refine Can.shut hd hstep (completes_of_cancelled ?_ rfl (getElem?_set_shutdown hd .taking) (by rintro _ ⟨⟩))
  exact ⟨h.inv.step (hwhole.trans hstep), coherent_act h.coherent rfl (hwhole.trans hstep)⟩

end completes

section follows

variable {k : Nat} {d : Shutdown}

/-- A shutdown that asks has asked from the beginning. -/
def Follows (d d' : Shutdown) : Prop := ∀ m, d' = .asking m → d = .asking m

theorem follows_set {l : List Shutdown} {i : Nat} {c c' : Shutdown} (hd : l[k]? = some d) (hi : l[i]? = some c)
    (hc' : ∀ m, c' ≠ .asking m) : ∃ d', (l.set i c')[k]? = some d' ∧ Follows d d' := by
  rw [List.getElem?_set, hd]
  split
  · next heq =>
    subst heq
    exact ⟨c', if_pos (List.getElem?_eq_some_iff.mp hi).1, fun m heq => absurd heq (hc' m)⟩
  · exact ⟨d, rfl, fun _ => id⟩

variable [Inhabited Value] {p p' : Clocked Value}

theorem follows_act {s s' : State Value} {a : Action Value} (hd : s.shutdowns[k]? = some d) (hstep : s.step a = some s') :
    ∃ d', s'.shutdowns[k]? = some d' ∧ Follows d d' := by
  cases moves_of_step hstep with
  | shutdown frame => exact ⟨d, List.getElem?_append_left (List.getElem?_eq_some_iff.mp hd).1 ▸ hd, fun _ => id⟩
  | asked hi | taken hi | joined hi | cleared hi | drained hi => exact follows_set hd hi nofun
  | @deliver child k' stdin broken resp =>
    have hsame := (rest_route (s.setChild child ⟨stdin, broken, .reading⟩) k' resp).2.2.shutdowns
    exact ⟨d, (congrArg (·[k]?) hsame).trans hd, fun _ => id⟩
  | _ => exact ⟨d, hd, fun _ => id⟩

theorem follows_step {e : ClockedEvent Value} (hd : p.state.shutdowns[k]? = some d) (hstep : p.step e = some p') :
    ∃ d', p'.state.shutdowns[k]? = some d' ∧ Follows d d' := by
  cases e with
  | call frame deadline | shutdown frame =>
    simp only [Clocked.step, Option.map_eq_some_iff] at hstep
    obtain ⟨s', hs', rfl⟩ := hstep
    exact follows_act hd hs'
  | act a =>
    obtain ⟨-, s', hs', rfl⟩ := step_act hstep
    exact follows_act hd hs'
  | childReads child count =>
    simp only [Clocked.step] at hstep
    split at hstep
    · obtain rfl := Option.some.inj hstep
      exact ⟨d, hd, fun _ => id⟩
    · contradiction
  | childCloses child | tick millis =>
    obtain rfl := Option.some.inj hstep
    exact ⟨d, hd, fun _ => id⟩

theorem follows_exec {events : List (ClockedEvent Value)} (hd : p.state.shutdowns[k]? = some d)
    (hexec : exec step p events = some p') :
    ∃ d', p'.state.shutdowns[k]? = some d' ∧ Follows d d' := by
  induction events generalizing p d with
  | nil =>
    obtain rfl := Option.some.inj hexec
    exact ⟨d, hd, fun _ => id⟩
  | cons e events ih =>
    obtain ⟨p₁, hstep, hrest⟩ := Option.bind_eq_some_iff.mp hexec
    obtain ⟨d₁, hd₁, hfirst⟩ := follows_step hd hstep
    obtain ⟨d', hd', hlater⟩ := ih hd₁ hrest
    exact ⟨d', hd', fun m heq => hfirst m (hlater m heq)⟩

theorem Sound.completes (h : p.Sound) (hd : p.state.shutdowns[k]? = some d)
    (hcall : ∀ n, d = .asking n → p.Can (Alone n) fun p' => Returned p'.state n) :
    p.Can Unaided fun p' => p'.state.shutdowns[k]? = some .done := by
  have hgone : ∀ (p₁ : Clocked Value) (c : Shutdown), p₁.Sound → p₁.state.shutdowns[k]? = some c → (∀ n, c ≠ .asking n) →
      p₁.Can Unaided fun p' => p'.state.shutdowns[k]? = some .done := fun p₁ c h₁ hc hnot =>
    completes_of_cancelled h₁ (h₁.coherent.stops c (List.mem_of_getElem? hc) hnot) hc hnot
  by_cases hasks : ∃ n, d = .asking n
  · obtain ⟨n, rfl⟩ := hasks
    obtain ⟨events, p₁, halone, hexec, hreturned⟩ := hcall n rfl
    obtain ⟨c, hc, hfollows⟩ := follows_exec hd hexec
    have hunaided : ∀ e ∈ events, Unaided e := fun e he => by
      have := halone e he
      cases e with
      | act a => cases a <;> trivial
      | _ => trivial
    have h₁ := h.exec hexec
    -- it may have gone on by itself when the call had returned
    have hrest : p₁.Can Unaided fun p' => p'.state.shutdowns[k]? = some .done := by
      by_cases hstill : ∃ m, c = .asking m
      · obtain ⟨m, rfl⟩ := hstill
        obtain rfl := Shutdown.asking.inj (hfollows m rfl)
        exact completes_of_returned h₁ hc hreturned
      · exact hgone p₁ c h₁ hc fun m heq => hstill ⟨m, heq⟩
    exact Can.trans ⟨events, p₁, hunaided, hexec, rfl⟩ h fun p' _ heq => heq ▸ hrest
  · exact hgone p d h hd fun n heq => hasks ⟨n, heq⟩

theorem Sound.deadlinesKept_iff (h : p.Sound) : p.DeadlinesKept ↔ ∀ n, p.Overdue n → p.Unblocked n := by
  constructor
  · intro hkept n hdue
    by_contra hnot
    exact (h.blocked_of_not hnot).not_can h (hkept.calls n hdue)
  · intro hfree
    have hcalls : ∀ n, p.Overdue n → p.Can (Alone n) fun p' => Returned p'.state n := fun n hdue =>
      h.returns hdue.1 (hfree n hdue)
    exact ⟨hcalls, fun k d hd hasks => h.completes hd fun n heq => hcalls n (hasks n heq)⟩

end follows

/-- In every state of a run overdue calls can return and shutdowns complete, just when in none of them a
call that is overdue waits for the lock of another, or has more to write than its child's pipe takes. -/
theorem deadlines_kept_iff [Inhabited Value] (maxRetries capacity : Nat) (events : List (ClockedEvent Value)) :
    (∀ before after p₁, events = before ++ after → exec step (.spawn Value maxRetries capacity) before = some p₁ →
      p₁.DeadlinesKept) ↔
    ∀ before after p₁, events = before ++ after → exec step (.spawn Value maxRetries capacity) before = some p₁ →
      ∀ n, p₁.Overdue n → p₁.Unblocked n := by
  have hsound : ∀ before p₁, exec step (.spawn Value maxRetries capacity) before = some p₁ →
    p₁.Sound := fun before p₁ hexec =>
    (sound_spawn maxRetries capacity).exec hexec
  constructor
  · intro hkept before after p₁ heq hexec
    exact (hsound before p₁ hexec).deadlinesKept_iff.mp (hkept before after p₁ heq hexec)
  · intro hfree before after p₁ heq hexec
    exact (hsound before p₁ hexec).deadlinesKept_iff.mpr (hfree before after p₁ heq hexec)

def sampleFrame : Frame := ⟨[123, 125, 10], nofun⟩

/-- A call whose time is up while it writes, to a child with room. -/
def promptRun : List (ClockedEvent Unit) :=
  [.call sampleFrame 5, .act (.register 1), .act (.lock 1), .act (.write 1 2), .tick 10,
    .act (.write 1 1)]

theorem deadlines_kept_promptRun : ∀ before after p₁, promptRun = before ++ after →
    exec step (.spawn Unit 3 4096) before = some p₁ → p₁.DeadlinesKept := by
  refine (deadlines_kept_iff 3 4096 promptRun).mpr fun before after p₁ heq hexec n hdue => ?_
  have hlen : before.length ≤ 6 := by
    have hsum := congrArg List.length heq
    rw [List.length_append] at hsum
    exact (Nat.le_add_right _ _).trans_eq hsum.symm
  have hcut : before = promptRun.take before.length := by rw [heq, List.take_left]
  rw [hcut] at hexec
  generalize before.length = k at hlen hexec
  obtain ⟨⟨frame, phase, hout, -⟩, htime⟩ := hdue
  intro frame' phase' hout'
  interval_cases k <;> obtain rfl := Option.some.inj hexec <;> obtain _ | _ | n := n <;>
    first | contradiction | exact absurd htime (by decide) | skip
  all_goals
    obtain ⟨rfl, rfl⟩ := Prod.mk.inj (Option.some.inj hout')
    constructor
    · rintro (h | h) <;> cases h
    · rintro child written ⟨⟩ <;> exact .inr (.inl (by decide))

/-- A child that has stopped reading: the first call holds the lock and the second waits for it. -/
def stalledRun : List (ClockedEvent Unit) :=
  [.call sampleFrame 10, .act (.register 1), .act (.lock 1), .act (.write 1 2),
    .call sampleFrame 10, .act (.register 2), .tick 10]

def stalled : Clocked Unit := (exec step (.spawn Unit 3 2) stalledRun).getD (.spawn Unit 3 2)

theorem stalled_calls : exec step (.spawn Unit 3 2) stalledRun = some stalled ∧ stalled.Overdue 1 ∧ stalled.Overdue 2 ∧
    ¬ stalled.Can (Alone 1) (fun p' => Returned p'.state 1) ∧ ¬ stalled.DeadlinesKept := by
  have hrun : exec step (.spawn Unit 3 2) stalledRun = some stalled := rfl
  have hsound := (sound_spawn 3 2).exec hrun
  have hfirst : stalled.Overdue 1 := ⟨⟨sampleFrame, .writing 0 2, rfl, nofun⟩, by decide⟩
  have hsecond : stalled.Overdue 2 := ⟨⟨sampleFrame, .locking, rfl, nofun⟩, by decide⟩
  have hclogged : stalled.Blocked 1 := by
    refine ⟨sampleFrame, .writing 0 2, rfl, .inr ⟨0, 2, rfl, ?_⟩⟩
    rintro (hclosed | hfits | hended | hcancelled | ⟨k, n, hk, -⟩)
    · contradiction
    · exact absurd hfits (by decide)
    · contradiction
    · contradiction
    · contradiction
  have hwaits : stalled.Blocked 2 := ⟨sampleFrame, .locking, rfl, .inl ⟨.inr rfl, .inl ⟨1, by decide, rfl⟩⟩⟩
  exact ⟨hrun, hfirst, hsecond, hclogged.not_can hsound, fun hkept => hwaits.not_can hsound (hkept.calls 2 hsecond)⟩

end Clocked

end SmithsNet.Sidecar
