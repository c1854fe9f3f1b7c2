import SmithsNet.Lib.Exec
import SmithsNet.Lib.Table
import SmithsNet.Lib.Wire

/-!
# SmithsNet.Sidecar.Supervisor

One supervised sidecar (`smiths-sidecar/src/supervisor.rs`): callers, the reader
of the child's output, the supervisor and whoever shuts it down.

They share the map of pending calls and the child's stdin.  The map is locked for
one operation at a time; the lock of the process is held while a frame is
written.  Every `.await` is a point at which the others move, so that a call is
in one `Phase` between two of them.  What the outside decides (when a frame
comes, how much of a write is taken, when a timeout fires) is in the actions.

Time and the backoff are left out: a timeout may fire and a sleep may end
whenever it is waited for.
-/

namespace SmithsNet.Sidecar

open Lib

/-! ## messages -/

structure RpcError where
  code : Int
  message : Text
  deriving DecidableEq

/-- A frame of the child; `default` is the JSON `null`. -/
structure RpcResponse (Value : Type) where
  id : Option Nat
  result : Option Value
  error : Option RpcError
  method : Option Text
  params : Option Value
  deriving DecidableEq

/-- What a call returns. -/
inductive Outcome (Value : Type)
  | ok (value : Value)
  | plugin (code : Int) (message : Text)
  | closed
  | io
  | timeout
  deriving DecidableEq

/-- What a response is to its caller. -/
def RpcResponse.outcome {Value : Type} [Inhabited Value] (r : RpcResponse Value) : Outcome Value :=
  match r.error with
  | some e => .plugin e.code e.message
  | none => .ok (r.result.getD default)

/-! ## the parties -/

/-- An encoded request. -/
abbrev Frame := { b : Bytes // b ≠ [] }

/-- Where `call_with_timeout` is. -/
inductive Phase (Value : Type)
  /-- It has its id and asks for the map. -/
  | registering
  /-- It asks for the process. -/
  | locking
  /-- It holds the process and has written so many bytes. -/
  | writing (child written : Nat)
  | flushing
  /-- It waits for its response. -/
  | waiting
  /-- It asks for the map, to take its entry out; it may hold the process. -/
  | removing (out : Outcome Value) (holding : Bool)
  | returned (out : Outcome Value)
  | cancelled
  deriving DecidableEq

/-- The channel a call waits on. -/
inductive Slot
  | unresolved
  /-- The frame with this number was sent. -/
  | sent (frame : Nat)
  /-- The sender is gone. -/
  | dropped
  deriving DecidableEq

structure Call (Value : Type) where
  frame : Frame
  phase : Phase Value
  slot : Slot

/-- The task that reads a child's stdout. -/
inductive Reader
  | reading
  /-- It has a frame and asks for the map. -/
  | holding (frame : Nat)
  | ended
  deriving DecidableEq

structure Child where
  /-- What has been written to its stdin. -/
  stdin : Bytes
  /-- Nobody reads the other end. -/
  broken : Bool
  reader : Reader

/-- Where `supervise_loop` is. -/
inductive Supervisor
  | running (child : Nat)
  /-- The child is gone; the process has still to be cleared. -/
  | dying
  /-- The process is cleared; the calls have still to be failed. -/
  | draining
  /-- Whether to try again. -/
  | deciding
  | sleeping
  /-- A new child, not in place yet. -/
  | spawned (child : Nat)
  | finished
  deriving DecidableEq

/-- Where a `shutdown` is. -/
inductive Shutdown
  /-- It has asked the child, as a call. -/
  | asking (call : Nat)
  /-- The token is cancelled; it asks for the supervisor's handle. -/
  | taking
  /-- It waits for the supervisor, if it has the handle. -/
  | joining (handle : Bool)
  | clearing
  | draining
  | done

structure State (Value : Type) where
  /-- A number that does not wrap round: 64 bits in the program. -/
  nextId : Nat
  /-- The calls by their ids. -/
  calls : Table Nat (Call Value)
  /-- The senders by id: of which call each is. -/
  pending : Table Nat Nat
  /-- The call that holds the process. -/
  lockedBy : Option Nat
  process : Option Nat
  children : Table Nat Child
  nextChild : Nat
  /-- Every frame read, of whatever child. -/
  frames : List (RpcResponse Value)
  supervisor : Supervisor
  maxRetries : Nat
  attempts : Nat
  /-- The shutdown token. -/
  cancelled : Bool
  /-- The supervisor's handle has not been taken. -/
  handle : Bool
  shutdowns : List Shutdown

def Child.fresh : Child := ⟨[], false, .reading⟩

/-- `spawn_with_options`, once the first child is up. -/
def State.spawn (Value : Type) (maxRetries : Nat) : State Value where
  nextId := 1
  calls := .empty
  pending := .empty
  lockedBy := none
  process := some 0
  children := Table.empty.insert 0 .fresh
  nextChild := 1
  frames := []
  supervisor := .running 0
  maxRetries := maxRetries
  attempts := 0
  cancelled := false
  handle := true
  shutdowns := []

inductive Action (Value : Type)
  /-- A call gets its id. -/
  | call (frame : Frame)
  | register (call : Nat)
  | lock (call : Nat)
  /-- So many more bytes are taken. -/
  | write (call count : Nat)
  | writeFails (call : Nat)
  | flush (call : Nat)
  /-- The channel has something to say. -/
  | resolve (call : Nat)
  | expire (call : Nat)
  | remove (call : Nat)
  /-- The call's future is dropped. -/
  | cancel (call : Nat)
  /-- A reader takes a frame from the pipe. -/
  | read (child : Nat) (resp : RpcResponse Value)
  /-- It routes it. -/
  | deliver (child : Nat)
  /-- The pipe is closed or fails, or the child has broken the protocol. -/
  | endReader (child : Nat)
  /-- The supervisor sees its reader end. -/
  | reap
  | clear
  /-- `healthy`: the child had been up long enough. -/
  | drain (healthy : Bool)
  | decide
  /-- The sleep is over; the spawn works or does not. -/
  | wake (works : Bool)
  | install
  /-- The supervisor sees the token cancelled. -/
  | halt
  | shutdown (frame : Frame)
  | shut (n : Nat)

/-! ## the steps -/

namespace State

variable {Value : Type}

def setPhase (s : State Value) (n : Nat) (c : Call Value) (phase : Phase Value) : State Value :=
  { s with calls := s.calls.insert n { c with phase } }

/-- The lock is free when the call that held it is done. -/
def release (s : State Value) (n : Nat) : State Value :=
  { s with lockedBy := if s.lockedBy = some n then none else s.lockedBy }

def start (s : State Value) (frame : Frame) : State Value :=
  { s with
    nextId := s.nextId + 1
    calls := s.calls.insert s.nextId ⟨frame, .registering, .unresolved⟩ }

/-- `fail_pending`: every sender in the map is dropped.  A sender is only ever
under its own id. -/
def failPending (s : State Value) : State Value :=
  { s with
    pending := .empty
    calls := fun n => (s.calls n).map fun c => if s.pending n = some n then { c with slot := .dropped } else c }

/-- `deliver`: a response goes to the sender under its id, and nowhere without one. -/
def route (s : State Value) (k : Nat) (resp : RpcResponse Value) : State Value :=
  match resp.id.bind fun id => (s.pending id).map fun n => (id, n) with
  | some (id, n) =>
    { s with
      pending := s.pending.erase id
      calls := fun m => (s.calls m).map fun c => if m = n then { c with slot := .sent k } else c }
  | none => s

def setChild (s : State Value) (c : Nat) (child : Child) : State Value :=
  { s with children := s.children.insert c child }

/-- A step of `shutdown`. -/
def shutStep (s : State Value) (n : Nat) : Shutdown → Option (State Value)
  | .asking call =>
    match s.calls call with
    | some ⟨_, .returned _, _⟩ => some { s with cancelled := true, shutdowns := s.shutdowns.set n .taking }
    | _ => none
  | .taking => some { s with handle := false, shutdowns := s.shutdowns.set n (.joining s.handle) }
  | .joining handle =>
    if handle = false ∨ s.supervisor = .finished then
      some { s with shutdowns := s.shutdowns.set n .clearing }
    else none
  | .clearing =>
    if s.lockedBy = none then
      some { s with process := none, shutdowns := s.shutdowns.set n .draining }
    else none
  | .draining => some { s.failPending with shutdowns := s.shutdowns.set n .done }
  | .done => none

def step [Inhabited Value] (s : State Value) : Action Value → Option (State Value)
  | .call frame => some (s.start frame)
  | .register n =>
    match s.calls n with
    | some ⟨frame, .registering, slot⟩ =>
      some { s.setPhase n ⟨frame, .registering, slot⟩ .locking with pending := s.pending.insert n n }
    | _ => none
  | .lock n =>
    match s.calls n with
    | some ⟨frame, .locking, slot⟩ =>
      if s.lockedBy = none then
        some { s.setPhase n ⟨frame, .locking, slot⟩
            (match s.process with
              | some c => .writing c 0
              | none => .removing .closed true) with
          lockedBy := some n }
      else none
    | _ => none
  | .write n count =>
    match s.calls n with
    | some ⟨frame, .writing c written, slot⟩ =>
      match s.children c with
      | some child =>
        if child.broken = false ∧ 0 < count ∧ written + count ≤ frame.1.length then
          some ((s.setChild c { child with stdin := child.stdin ++ slice frame.1 written count }).setPhase
            n ⟨frame, .writing c written, slot⟩
            (if written + count = frame.1.length then .flushing else .writing c (written + count)))
        else none
      | none => none
    | _ => none
  | .writeFails n =>
    match s.calls n with
    | some ⟨frame, .writing c written, slot⟩ =>
      match s.children c with
      | some child =>
        some ((s.setChild c { child with broken := true }).setPhase n ⟨frame, .writing c written, slot⟩
          (.removing .io true))
      | none => none
    | _ => none
  | .flush n =>
    match s.calls n with
    | some ⟨frame, .flushing, slot⟩ => some ((s.setPhase n ⟨frame, .flushing, slot⟩ .waiting).release n)
    | _ => none
  | .resolve n =>
    match s.calls n with
    | some ⟨frame, .waiting, .sent k⟩ =>
      (s.frames[k]?).map fun resp => s.setPhase n ⟨frame, .waiting, .sent k⟩ (.returned resp.outcome)
    | some ⟨frame, .waiting, .dropped⟩ =>
      some (s.setPhase n ⟨frame, .waiting, .dropped⟩ (.removing .closed false))
    | _ => none
  | .expire n =>
    match s.calls n with
    | some ⟨frame, .waiting, .unresolved⟩ =>
      some (s.setPhase n ⟨frame, .waiting, .unresolved⟩ (.removing .timeout false))
    | _ => none
  | .remove n =>
    match s.calls n with
    | some ⟨frame, .removing out holding, slot⟩ =>
      some { (s.setPhase n ⟨frame, .removing out holding, slot⟩ (.returned out)).release n with
        pending := s.pending.erase n }
    | _ => none
  | .cancel n =>
    match s.calls n with
    | some ⟨_, .returned _, _⟩ | some ⟨_, .cancelled, _⟩ | none => none
    | some c => some ((s.setPhase n c .cancelled).release n)
  | .read c resp =>
    match s.children c with
    | some ⟨stdin, broken, .reading⟩ =>
      some { s.setChild c ⟨stdin, broken, .holding s.frames.length⟩ with frames := s.frames ++ [resp] }
    | _ => none
  | .deliver c =>
    match s.children c with
    | some ⟨stdin, broken, .holding k⟩ =>
      (s.frames[k]?).map fun resp => (s.setChild c ⟨stdin, broken, .reading⟩).route k resp
    | _ => none
  | .endReader c =>
    match s.children c with
    | some ⟨stdin, broken, .reading⟩ => some (s.setChild c ⟨stdin, broken, .ended⟩)
    | _ => none
  | .reap =>
    match s.supervisor with
    | .running c =>
      if s.cancelled = false ∧ (s.children c).any (fun child => child.reader = .ended) then
        some { s with supervisor := .dying }
      else none
    | _ => none
  | .clear =>
    if s.supervisor = .dying ∧ s.lockedBy = none then
      some { s with process := none, supervisor := .draining }
    else none
  | .drain healthy =>
    if s.supervisor = .draining then
      some { s.failPending with
        supervisor := .deciding
        attempts := if healthy then 0 else s.attempts }
    else none
  | .decide =>
    if s.supervisor = .deciding then
      some (if s.maxRetries = 0 then { s with supervisor := .finished }
        else if s.maxRetries < s.attempts + 1 then
          { s with attempts := s.attempts + 1, supervisor := .finished }
        else { s with attempts := s.attempts + 1, supervisor := .sleeping })
    else none
  | .wake works =>
    if s.supervisor = .sleeping ∧ s.cancelled = false then
      some (if works then
          { s.setChild s.nextChild .fresh with
            nextChild := s.nextChild + 1
            supervisor := .spawned s.nextChild }
        else { s with supervisor := .deciding })
    else none
  | .install =>
    match s.supervisor with
    | .spawned c =>
      if s.lockedBy = none then some { s with process := some c, supervisor := .running c } else none
    | _ => none
  | .halt =>
    if s.cancelled then
      match s.supervisor with
      | .running _ | .sleeping => some { s with supervisor := .finished }
      | _ => none
    else none
  | .shutdown frame =>
    some { s.start frame with shutdowns := s.shutdowns ++ [.asking s.nextId] }
  | .shut n => (s.shutdowns[n]?).bind (s.shutStep n)

/-- What each step does, and when it can be taken. -/
inductive Moves [Inhabited Value] (s : State Value) : Action Value → State Value → Prop
  | call (frame : Frame) : Moves s (.call frame) (s.start frame)
  | register {n : Nat} {frame : Frame} {slot : Slot} (hc : s.calls n = some ⟨frame, .registering, slot⟩) :
      Moves s (.register n) { s.setPhase n ⟨frame, .registering, slot⟩ .locking with pending := s.pending.insert n n }
  | lock {n child : Nat} {frame : Frame} {slot : Slot} (hc : s.calls n = some ⟨frame, .locking, slot⟩)
      (hfree : s.lockedBy = none) (hproc : s.process = some child) :
      Moves s (.lock n) { s.setPhase n ⟨frame, .locking, slot⟩ (.writing child 0) with lockedBy := some n }
  | lockCleared {n : Nat} {frame : Frame} {slot : Slot} (hc : s.calls n = some ⟨frame, .locking, slot⟩)
      (hfree : s.lockedBy = none) (hproc : s.process = none) :
      Moves s (.lock n) { s.setPhase n ⟨frame, .locking, slot⟩ (.removing .closed true) with lockedBy := some n }
  | writePart {n count ch written : Nat} {frame : Frame} {slot : Slot} {child : Child}
      (hc : s.calls n = some ⟨frame, .writing ch written, slot⟩) (hchild : s.children ch = some child)
      (hopen : child.broken = false) (hcount : 0 < count) (hpart : written + count < frame.1.length) :
      Moves s (.write n count)
        ((s.setChild ch { child with stdin := child.stdin ++ slice frame.1 written count }).setPhase
          n ⟨frame, .writing ch written, slot⟩ (.writing ch (written + count)))
  | writeAll {n count ch written : Nat} {frame : Frame} {slot : Slot} {child : Child}
      (hc : s.calls n = some ⟨frame, .writing ch written, slot⟩) (hchild : s.children ch = some child)
      (hopen : child.broken = false) (hcount : 0 < count) (hall : written + count = frame.1.length) :
      Moves s (.write n count)
        ((s.setChild ch { child with stdin := child.stdin ++ slice frame.1 written count }).setPhase
          n ⟨frame, .writing ch written, slot⟩ .flushing)
  | writeFails {n ch written : Nat} {frame : Frame} {slot : Slot} {child : Child}
      (hc : s.calls n = some ⟨frame, .writing ch written, slot⟩) (hchild : s.children ch = some child) :
      Moves s (.writeFails n)
        ((s.setChild ch { child with broken := true }).setPhase n ⟨frame, .writing ch written, slot⟩ (.removing .io true))
  | flush {n : Nat} {frame : Frame} {slot : Slot} (hc : s.calls n = some ⟨frame, .flushing, slot⟩) :
      Moves s (.flush n) ((s.setPhase n ⟨frame, .flushing, slot⟩ .waiting).release n)
  | resolve {n k : Nat} {frame : Frame} {resp : RpcResponse Value} (hc : s.calls n = some ⟨frame, .waiting, .sent k⟩)
      (hk : s.frames[k]? = some resp) :
      Moves s (.resolve n) (s.setPhase n ⟨frame, .waiting, .sent k⟩ (.returned resp.outcome))
  | dropped {n : Nat} {frame : Frame} (hc : s.calls n = some ⟨frame, .waiting, .dropped⟩) :
      Moves s (.resolve n) (s.setPhase n ⟨frame, .waiting, .dropped⟩ (.removing .closed false))
  | expire {n : Nat} {frame : Frame} (hc : s.calls n = some ⟨frame, .waiting, .unresolved⟩) :
      Moves s (.expire n) (s.setPhase n ⟨frame, .waiting, .unresolved⟩ (.removing .timeout false))
  | remove {n : Nat} {frame : Frame} {out : Outcome Value} {holding : Bool} {slot : Slot}
      (hc : s.calls n = some ⟨frame, .removing out holding, slot⟩) :
      Moves s (.remove n) { (s.setPhase n ⟨frame, .removing out holding, slot⟩ (.returned out)).release n with
        pending := s.pending.erase n }
  | cancel {n : Nat} {c : Call Value} (hc : s.calls n = some c) (hlive : c.phase ≠ .cancelled) :
      Moves s (.cancel n) ((s.setPhase n c .cancelled).release n)
  | read {ch : Nat} {stdin : Bytes} {broken : Bool} (resp : RpcResponse Value)
      (hchild : s.children ch = some ⟨stdin, broken, .reading⟩) :
      Moves s (.read ch resp)
        { s.setChild ch ⟨stdin, broken, .holding s.frames.length⟩ with frames := s.frames ++ [resp] }
  | deliver {ch k : Nat} {stdin : Bytes} {broken : Bool} {resp : RpcResponse Value}
      (hchild : s.children ch = some ⟨stdin, broken, .holding k⟩) (hk : s.frames[k]? = some resp) :
      Moves s (.deliver ch) ((s.setChild ch ⟨stdin, broken, .reading⟩).route k resp)
  | endReader {ch : Nat} {stdin : Bytes} {broken : Bool} (hchild : s.children ch = some ⟨stdin, broken, .reading⟩) :
      Moves s (.endReader ch) (s.setChild ch ⟨stdin, broken, .ended⟩)
  | reap {ch : Nat} (hrunning : s.supervisor = .running ch)
      (hended : (s.children ch).any (fun child => child.reader = .ended) = true) :
      Moves s .reap { s with supervisor := .dying }
  | clear (hdying : s.supervisor = .dying) (hfree : s.lockedBy = none) :
      Moves s .clear { s with process := none, supervisor := .draining }
  | drain {healthy : Bool} (attempts : Nat) (hdraining : s.supervisor = .draining) :
      Moves s (.drain healthy) { s.failPending with supervisor := .deciding, attempts }
  | giveUp (attempts : Nat) (hdeciding : s.supervisor = .deciding) :
      Moves s .decide { s with attempts, supervisor := .finished }
  | retry (attempts : Nat) (hdeciding : s.supervisor = .deciding) :
      Moves s .decide { s with attempts, supervisor := .sleeping }
  | respawn (hsleeping : s.supervisor = .sleeping) :
      Moves s (.wake true) { s.setChild s.nextChild .fresh with
        nextChild := s.nextChild + 1
        supervisor := .spawned s.nextChild }
  | wakeFails (hsleeping : s.supervisor = .sleeping) : Moves s (.wake false) { s with supervisor := .deciding }
  | install {ch : Nat} (hspawned : s.supervisor = .spawned ch) (hfree : s.lockedBy = none) :
      Moves s .install { s with process := some ch, supervisor := .running ch }
  | halt (hcancelled : s.cancelled = true)
      (hlive : (∃ ch, s.supervisor = .running ch) ∨ s.supervisor = .sleeping) :
      Moves s .halt { s with supervisor := .finished }
  | shutdown (frame : Frame) :
      Moves s (.shutdown frame) { s.start frame with shutdowns := s.shutdowns ++ [.asking s.nextId] }
  | asked {i n : Nat} {frame : Frame} {out : Outcome Value} {slot : Slot} (hi : s.shutdowns[i]? = some (.asking n))
      (hc : s.calls n = some ⟨frame, .returned out, slot⟩) :
      Moves s (.shut i) { s with cancelled := true, shutdowns := s.shutdowns.set i .taking }
  | taken {i : Nat} (hi : s.shutdowns[i]? = some .taking) :
      Moves s (.shut i) { s with handle := false, shutdowns := s.shutdowns.set i (.joining s.handle) }
  | joined {i : Nat} {handle : Bool} (hi : s.shutdowns[i]? = some (.joining handle)) :
      Moves s (.shut i) { s with shutdowns := s.shutdowns.set i .clearing }
  | cleared {i : Nat} (hi : s.shutdowns[i]? = some .clearing) (hfree : s.lockedBy = none) :
      Moves s (.shut i) { s with process := none, shutdowns := s.shutdowns.set i .draining }
  | drained {i : Nat} (hi : s.shutdowns[i]? = some .draining) :
      Moves s (.shut i) { s.failPending with shutdowns := s.shutdowns.set i .done }

variable [Inhabited Value] {s s' : State Value}

theorem moves_of_shutStep {i : Nat} {d : Shutdown} (hi : s.shutdowns[i]? = some d) (h : s.shutStep i d = some s') :
    s.Moves (.shut i) s' := by
  cases d with
  | asking n =>
    simp only [shutStep] at h
    split at h
    · next hc => exact Option.some.inj h ▸ .asked hi hc
    · contradiction
  | taking => exact Option.some.inj h ▸ .taken hi
  | joining handle =>
    simp only [shutStep] at h
    split at h
    · exact Option.some.inj h ▸ .joined hi
    · contradiction
  | clearing =>
    simp only [shutStep] at h
    split at h
    · next hfree => exact Option.some.inj h ▸ .cleared hi hfree
    · contradiction
  | draining => exact Option.some.inj h ▸ .drained hi
  | done => contradiction

theorem moves_of_step {a : Action Value} (h : s.step a = some s') : s.Moves a s' := by
  cases a with
  | call frame => exact Option.some.inj h ▸ .call frame
  | shutdown frame => exact Option.some.inj h ▸ .shutdown frame
  | shut i =>
    obtain ⟨d, hi, h⟩ := Option.bind_eq_some_iff.mp h
    exact moves_of_shutStep hi h
  | lock n =>
    simp only [step] at h
    split at h
    · next hc =>
      split at h
      · next hfree =>
        cases hproc : s.process with
        | none => simpa [hproc, ← Option.some.inj h] using Moves.lockCleared hc hfree hproc
        | some child => simpa [hproc, ← Option.some.inj h] using Moves.lock hc hfree hproc
      · contradiction
    · contradiction
  | write n count =>
    simp only [step] at h
    split at h
    · next hc =>
      split at h
      · next hchild =>
        split at h
        · next hcount =>
          obtain ⟨hopen, hpos, hle⟩ := hcount
          obtain hall | hpart := Nat.eq_or_lt_of_le hle
          · rw [if_pos hall] at h
            exact Option.some.inj h ▸ .writeAll hc hchild hopen hpos hall
          · rw [if_neg (Nat.ne_of_lt hpart)] at h
            exact Option.some.inj h ▸ .writePart hc hchild hopen hpos hpart
        · contradiction
      · contradiction
    · contradiction
  | writeFails n =>
    simp only [step] at h
    split at h
    · next hc =>
      split at h
      · next hchild => exact Option.some.inj h ▸ .writeFails hc hchild
      · contradiction
    · contradiction
  | resolve n =>
    simp only [step] at h
    split at h
    · next hc =>
      obtain ⟨resp, hk, rfl⟩ := Option.map_eq_some_iff.mp h
      exact .resolve hc hk
    · next hc => exact Option.some.inj h ▸ .dropped hc
    · contradiction
  | cancel n =>
    simp only [step] at h
    split at h
    · contradiction
    · contradiction
    · contradiction
    · next c _ hlive hc =>
      refine Option.some.inj h ▸ .cancel hc fun heq => hlive c.frame c.slot ?_
      rw [← heq]
  | deliver ch =>
    simp only [step] at h
    split at h
    · next hchild =>
      obtain ⟨resp, hk, rfl⟩ := Option.map_eq_some_iff.mp h
      exact .deliver hchild hk
    · contradiction
  | reap | install =>
    simp only [step] at h
    split at h
    · next hsupervisor =>
      split at h
      · next hcan =>
        obtain rfl := Option.some.inj h
        first | exact .reap hsupervisor hcan.2 | exact .install hsupervisor hcan
      · contradiction
    · contradiction
  | clear =>
    simp only [step] at h
    split at h
    · next hcan => exact Option.some.inj h ▸ .clear hcan.1 hcan.2
    · contradiction
  | decide =>
    simp only [step] at h
    split at h
    · next hdeciding =>
      obtain rfl := Option.some.inj h
      split
      · exact .giveUp _ hdeciding
      · split
        · exact .giveUp _ hdeciding
        · exact .retry _ hdeciding
    · contradiction
  | wake works =>
    simp only [step] at h
    split at h
    · next hcan =>
      obtain rfl := Option.some.inj h
      cases works with
      | true => exact .respawn hcan.1
      | false => exact .wakeFails hcan.1
    · contradiction
  | halt =>
    simp only [step] at h
    split at h
    · next hcancelled =>
      split at h
      · next ch hrunning => exact Option.some.inj h ▸ .halt hcancelled (.inl ⟨ch, hrunning⟩)
      · next hsleeping => exact Option.some.inj h ▸ .halt hcancelled (.inr hsleeping)
      · contradiction
    · contradiction
  | register n | flush n | expire n | remove n | read ch resp | endReader ch | drain healthy =>
    simp only [step] at h
    split at h
    · obtain rfl := Option.some.inj h
      constructor
      assumption
    · contradiction

end State

end SmithsNet.Sidecar
