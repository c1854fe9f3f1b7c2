import SmithsNet.Lib.Exec
import SmithsNet.Lib.KeyMap
import SmithsNet.Txn.Client
import SmithsNet.Txn.Server

/-!
# SmithsNet.Txn.Driver

The transaction driver (`txn/driver.rs`): a table of live transactions, the
tasks that sleep on their timers, and the gauge of active server transactions.

The machine of an entry is stepped under the entry's lock; the actions it
returns are executed outside of it, and the table, the timers and the gauge
are each changed in a critical section of its own.  An operation in progress
is therefore a `Frame`: the entry it holds and the atomic steps it has still
to take.  Any number of frames is interleaved, and between two steps of one
the table may have lost or replaced its key.
-/

namespace SmithsNet.Txn

open Lib

/-! ## reading a raw message (`txn/mod.rs`) -/

/-- `header_value`: value of the first header of one of the given names. -/
def headerValue (bytes : Bytes) (names : List String) : Option Text := do
  let text ← fromUtf8 bytes
  (splitSub crlf (headerBlock text)).tail.findSome? fun line => do
    let (name, value) ← splitOnce ":".toList line
    if names.any fun n => eqIgnoreAsciiCase (trim name) n.toList then some (trim value) else none

/-- `top_via_sent_by`: host and port of the topmost `Via`. -/
def topViaSentBy (bytes : Bytes) : Option Text := do
  let value ← headerValue bytes ["via", "v"]
  let afterProto ← (splitWhitespace value)[1]?
  let sentBy ← ((splitBy (fun c => c == ';' || c == ',') afterProto).head?).map trim
  if sentBy.isEmpty then none else some sentBy

/-! ## the four machines as one -/

/-- `Box<dyn Transaction>`. -/
inductive Machine
  | clientInvite (t : ClientInviteTxn)
  | clientNonInvite (t : ClientNonInviteTxn)
  | serverInvite (t : ServerInviteTxn)
  | serverNonInvite (t : ServerNonInviteTxn)

namespace Machine

/-- One event, given to whichever machine it is. -/
def onEvent : Machine → TransactionEvent → Machine × List TransactionAction
  | clientInvite t, e => (Transaction.onEvent t e).map clientInvite id
  | clientNonInvite t, e => (Transaction.onEvent t e).map clientNonInvite id
  | serverInvite t, e => (Transaction.onEvent t e).map serverInvite id
  | serverNonInvite t, e => (Transaction.onEvent t e).map serverNonInvite id

instance : Transaction Machine where
  key
    | clientInvite t => Transaction.key t
    | clientNonInvite t => Transaction.key t
    | serverInvite t => Transaction.key t
    | serverNonInvite t => Transaction.key t
  state
    | clientInvite t => Transaction.state t
    | clientNonInvite t => Transaction.state t
    | serverInvite t => Transaction.state t
    | serverNonInvite t => Transaction.state t
  setReliable
    | clientInvite t, r => .clientInvite (Transaction.setReliable t r)
    | clientNonInvite t, r => .clientNonInvite (Transaction.setReliable t r)
    | serverInvite t, r => .serverInvite (Transaction.setReliable t r)
    | serverNonInvite t, r => .serverNonInvite (Transaction.setReliable t r)
  onEvent := onEvent

end Machine

/-- What the callers of `start_client` pass in. -/
inductive NewClient
  | invite (branch : String) (request : Bytes)
  | nonInvite (branch method : String) (request : Bytes)

def NewClient.machine : NewClient → Machine
  | invite branch request => .clientInvite (ClientInviteTxn.new branch request)
  | nonInvite branch method request => .clientNonInvite (ClientNonInviteTxn.new branch method request)

/-- What the callers of `start_server` pass in. -/
inductive NewServer
  | invite (branch : String)
  | nonInvite (branch method : String)

def NewServer.machine : NewServer → Machine
  | invite branch => .serverInvite (ServerInviteTxn.new branch)
  | nonInvite branch method => .serverNonInvite (ServerNonInviteTxn.new branch method)

/-! ## the driver's state -/

inductive TuEvent
  | response (status : Nat) (bytes : Bytes)
  | terminated
  deriving DecidableEq

/-- `TxnEntry`.  Entries are shared by reference; here they are numbered in the
order they are created and never given up. -/
structure Entry where
  /-- The key it was registered under. -/
  key : TransactionKey
  fsm : Machine
  /-- Handles of the armed timers: which task sleeps for each. -/
  timers : KeyMap TimerId Nat
  /-- Everything sent to the Transaction User. -/
  tu : List TuEvent
  cancelled : Bool
  /-- Everything put on the send queue. -/
  sent : List Bytes
  sentBy : Option Text
  got2xx : Bool

inductive TaskPhase
  /-- In the `select!` over the token and the sleep. -/
  | sleeping
  /-- Past it: `fire_timer` is called, aborting has no effect any more. -/
  | firing
  /-- Gone, by returning or by being aborted. -/
  | done
  deriving DecidableEq

/-- A task spawned by `arm_timer`.  It keeps the key, not the entry. -/
structure TimerTask where
  /-- The entry it was armed for. -/
  owner : Nat
  key : TransactionKey
  id : TimerId
  phase : TaskPhase

/-- The atomic steps of the driver's operations. -/
inductive Op
  /-- `lock(&entry.fsm).on_event(..)` -/
  | event (e : TransactionEvent)
  /-- One action of `execute_actions`. -/
  | perform (a : TransactionAction)
  /-- `arm_timer`: keep the handle of the task just spawned. -/
  | track (id : TimerId) (task : Nat)
  /-- `fire_timer`: drop the handle. -/
  | untrack (id : TimerId)
  | incGauge
  /-- The steps of `terminate`. -/
  | cancelToken
  | abortTimers
  | removeEntry
  | decGauge
  | notify

/-- An operation in progress. -/
structure Frame where
  key : TransactionKey
  entry : Nat
  ops : List Op
  /-- For `fire_timer`: the entry the timer was armed for. -/
  armedFor : Option Nat

structure Driver where
  reliable : Bool
  entries : List Entry
  txns : KeyMap TransactionKey Nat
  tasks : List TimerTask
  frames : List Frame
  /-- `sip_server_txns_active`. -/
  gauge : Int

def Driver.new (reliable : Bool) : Driver := ⟨reliable, [], ∅, [], [], 0⟩

/-! ## the steps -/

namespace Driver

def setEntry (s : Driver) (x : Nat) (e : Entry) : Driver :=
  { s with entries := s.entries.set x e }

/-- Abort a task; one that is past its `select!` goes on. -/
def abort (tasks : List TimerTask) (t : Nat) : List TimerTask :=
  tasks.modify t fun task => if task.phase = .sleeping then { task with phase := .done } else task

def begin (s : Driver) (key : TransactionKey) (x : Nat) (ops : List Op) (armedFor : Option Nat) :
    Driver :=
  { s with frames := s.frames ++ [⟨key, x, ops, armedFor⟩] }

/-- Build the entry and insert it, in place of whatever the key held. -/
def register (s : Driver) (fsm : Machine) (sentBy : Option Text) : Driver :=
  let fsm := Transaction.setReliable fsm s.reliable
  let key := Transaction.key fsm
  { s with
    entries := s.entries ++ [⟨key, fsm, ∅, [], false, [], sentBy, false⟩]
    txns := s.txns.insert key s.entries.length }

/-- The calls that look an entry up by its key and feed its machine. -/
def deliver (s : Driver) (key : TransactionKey) (e : TransactionEvent) : Driver :=
  match s.txns.lookup key with
  | some x => s.begin key x [.event e] none
  | none => s

/-- A request whose `sent-by` differs is not a retransmission. -/
def matchesSentBy (e : Entry) (bytes : Bytes) : Bool :=
  match e.sentBy, topViaSentBy bytes with
  | some expected, some actual => actual == expected
  | _, _ => true

/-- One step on entry `x`: the driver after it, and the steps it calls for. -/
def perform (s : Driver) (key : TransactionKey) (x : Nat) (e : Entry) : Op → Driver × List Op
  | .event ev =>
    let (fsm, actions) := Transaction.onEvent e.fsm ev
    (s.setEntry x { e with fsm }, actions.map .perform)
  | .perform (.sendToPeer bytes) => (s.setEntry x { e with sent := e.sent ++ [bytes] }, [])
  | .perform (.deliverResponseToTu status bytes) =>
    let ok := key.role = .client ∧ key.method = "INVITE" ∧ 200 ≤ status ∧ status < 300
    (s.setEntry x { e with
      got2xx := e.got2xx || decide ok
      tu := e.tu ++ [.response status bytes] }, [])
  | .perform (.armTimer id _) =>
    ({ s with tasks := s.tasks ++ [⟨x, key, id, .sleeping⟩] }, [.track id s.tasks.length])
  | .perform (.cancelTimer id) =>
    ({ s.setEntry x { e with timers := e.timers.erase id } with
      tasks := (e.timers.lookup id).elim s.tasks (abort s.tasks) }, [])
  | .perform .terminated => (s, [.cancelToken, .abortTimers, .removeEntry, .notify])
  | .track id task =>
    ({ s.setEntry x { e with timers := e.timers.insert id task } with
      tasks := (e.timers.lookup id).elim s.tasks (abort s.tasks) }, [])
  | .untrack id => (s.setEntry x { e with timers := e.timers.erase id }, [])
  | .incGauge => ({ s with gauge := s.gauge + 1 }, [])
  | .cancelToken => (s.setEntry x { e with cancelled := true }, [])
  | .abortTimers =>
    ({ s.setEntry x { e with timers := ∅ } with
      tasks := (e.timers.entries.map Sigma.snd).foldl abort s.tasks }, [])
  | .removeEntry =>
    match s.txns.lookup key with
    | some _ =>
      ({ s with txns := s.txns.erase key }, if key.role = .server then [.decGauge] else [])
    | none => (s, [])
  | .decGauge => ({ s with gauge := s.gauge - 1 }, [])
  | .notify => (s.setEntry x { e with tu := e.tu ++ [.terminated] }, [])

end Driver

inductive DriverAction
  | startClient (txn : NewClient)
  | startServer (txn : NewServer) (sentBy : Option Text)
  | deliverResponse (key : TransactionKey) (status : Nat) (bytes : Bytes)
  | deliverRequest (key : TransactionKey) (method : String) (bytes : Bytes)
  | sendResponse (key : TransactionKey) (status : Nat) (bytes : Bytes)
  /-- The sleep is over, and the task takes that branch. -/
  | wake (task : Nat)
  /-- The task sees the cancelled token. -/
  | quit (task : Nat)
  /-- `fire_timer` looks its entry up. -/
  | fire (task : Nat)
  /-- The next step of an operation in progress. -/
  | run (frame : Nat)

namespace Driver

def step (s : Driver) : DriverAction → Option Driver
  | .startClient txn =>
    let key := Transaction.key txn.machine
    some ((s.register txn.machine none).begin key s.entries.length [.event .startClient] none)
  | .startServer txn sentBy =>
    let key := Transaction.key txn.machine
    some ((s.register txn.machine sentBy).begin key s.entries.length [.incGauge] none)
  | .deliverResponse key status bytes => some (s.deliver key (.responseReceived status bytes))
  | .deliverRequest key method bytes =>
    match s.txns.lookup key with
    | some x =>
      match s.entries[x]? with
      | some e =>
        if matchesSentBy e bytes then
          some (s.begin key x [.event (.requestReceived method bytes)] none)
        else some s
      | none => none
    | none => some s
  | .sendResponse key status bytes => some (s.deliver key (.sendResponseFromTu status bytes))
  | .wake t =>
    match s.tasks[t]? with
    | some ⟨owner, key, id, .sleeping⟩ =>
      some { s with tasks := s.tasks.set t ⟨owner, key, id, .firing⟩ }
    | _ => none
  | .quit t =>
    match s.tasks[t]? with
    | some ⟨owner, key, id, .sleeping⟩ =>
      match s.entries[owner]? with
      | some e =>
        if e.cancelled then some { s with tasks := s.tasks.set t ⟨owner, key, id, .done⟩ }
        else none
      | none => none
    | _ => none
  | .fire t =>
    match s.tasks[t]? with
    | some ⟨owner, key, id, .firing⟩ =>
      let s' := { s with tasks := s.tasks.set t ⟨owner, key, id, .done⟩ }
      match s.txns.lookup key with
      | some x => some (s'.begin key x [.untrack id, .event (.timerFired id)] (some owner))
      | none => some s'
    | _ => none
  | .run i =>
    match s.frames[i]? with
    | some ⟨key, x, op :: rest, armedFor⟩ =>
      match s.entries[x]? with
      | some e =>
        let (s', ops) := s.perform key x e op
        some { s' with frames := s.frames.set i ⟨key, x, ops ++ rest, armedFor⟩ }
      | none => none
    | _ => none

end Driver

end SmithsNet.Txn
