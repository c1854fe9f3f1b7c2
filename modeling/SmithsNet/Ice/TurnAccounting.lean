import SmithsNet.Ice.TurnChannels

/-!
# SmithsNet.Ice.TurnAccounting

The TURN server with what it keeps beside its allocations: the relay task of
each, the token that cancels it, and the gauge of active allocations.

`Server` has the allocation table as a finite map, so that its entries can be
counted; `view` forgets the tasks and the gauge, and `view_step` shows that it
is the server of `SmithsNet.Ice.Turn`.  An allocation enters the table by
`insert` and leaves it by four routes, each of which updates gauge and token by
hand; `Accounted` is what all of them keep.
-/

namespace SmithsNet.Ice.Turn

open Lib SmithsNet.Core

/-- An allocation, and which of the relay tasks is its own. -/
structure Entry where
  allocation : Allocation
  task : Nat

structure Server where
  realm : Text
  relayIp : IpAddr
  allocationLifetime : Nat
  allocations : KeyMap SocketAddr Entry
  challenges : Table SocketAddr (Text × Nat)
  credentials : Table Text LongTermCredential
  /-- Of every relay task spawned so far, whether its token has been cancelled. -/
  cancelled : List Bool
  /-- `turn_active_allocations` -/
  gauge : Int

namespace Server

def new (config : TurnServerConfig) : Server where
  realm := config.realm
  relayIp := config.relayIp
  allocationLifetime := config.allocationLifetime
  allocations := ∅
  challenges := .empty
  credentials := config.credentials.foldl (fun t c => t.insert c.username c) .empty
  cancelled := []
  gauge := 0

/-- The server without tasks and gauge. -/
def view (s : Server) : TurnServer where
  realm := s.realm
  relayIp := s.relayIp
  allocationLifetime := s.allocationLifetime
  allocations := fun client => (s.allocations.lookup client).map Entry.allocation
  challenges := s.challenges
  credentials := s.credentials

/-- `relay_task_cancel.cancel()` -/
def cancel (s : Server) (task : Nat) : Server := { s with cancelled := s.cancelled.set task true }

/-- The entries take their allocations from a server that has changed them in place. -/
def adopt (s : Server) (v : TurnServer) : Server :=
  { s with
    allocations := KeyMap.mapVals (fun client e =>
      { e with allocation := (v.allocations client).getD e.allocation }) s.allocations
    challenges := v.challenges }

/-! ## the routes into and out of the table -/

/-- The relay task is spawned and the allocation enters the table; an entry that
has expired and was not swept yet is replaced. -/
def enter (s : Server) (client : SocketAddr) (a : Allocation) : Server :=
  let task := s.cancelled.length
  let s' := { s with
    allocations := s.allocations.insert client ⟨a, task⟩
    cancelled := s.cancelled ++ [false] }
  match s.allocations.lookup client with
  | some old => s'.cancel old.task
  | none => { s' with gauge := s'.gauge + 1 }

/-- Refresh with lifetime 0. -/
def release (s : Server) (client : SocketAddr) : Server :=
  match s.allocations.lookup client with
  | some e => { s.cancel e.task with allocations := s.allocations.erase client, gauge := s.gauge - 1 }
  | none => s

/-- The entries that are not live any more. -/
def expired (s : Server) (now : Nat) : List Entry :=
  (s.allocations.entries.filter fun e => ! e.2.allocation.isLive now).map fun e => e.2

def cancelAll (s : Server) (es : List Entry) : Server := es.foldl (fun s e => s.cancel e.task) s

def sweep (s : Server) (now : Nat) : Server :=
  let expired := s.expired now
  { s.cancelAll expired with
    allocations := KeyMap.mapVals (fun _ e => { e with allocation := e.allocation.prune now })
      (KeyMap.retain (fun _ e => e.allocation.isLive now) s.allocations)
    gauge := s.gauge - expired.length
    challenges := s.challenges.retain fun _ c => decide (now < c.2) }

def shutdownAllocations (s : Server) : Server :=
  { s.cancelAll (s.allocations.entries.map fun e => e.2) with
    allocations := ∅
    gauge := s.gauge - s.allocations.len }

/-! ## the requests -/

def handleAllocate (hmac : Hmac) (s : Server) (msg : ParsedStun) (client : SocketAddr) (env : Env) :
    Server × Bytes :=
  if ¬ TurnServer.transportOk msg then
    (s, buildError METHOD_ALLOCATE msg.txid 442 "Unsupported Transport Protocol")
  else
    match s.view.authenticate hmac msg client env with
    | .error (v, reply) => ({ s with challenges := v.challenges }, reply)
    | .ok auth =>
      if (s.allocations.lookup client).any fun e => e.allocation.isLive env.ownerAt then
        (s, buildError METHOD_ALLOCATE msg.txid 437 "Allocation Mismatch")
      else
        match env.relay with
        | .bindFailed => (s, buildError METHOD_ALLOCATE msg.txid 508 "Insufficient Capacity")
        | .noAddress => (s, buildError METHOD_ALLOCATE msg.txid 500 "Server Error")
        | .bound port =>
          let relayAddr := SocketAddr.new s.relayIp port
          let lifetime := min (TurnServer.requestedLifetime msg) s.view.maxLifetime
          let fresh : Allocation :=
            { username := auth.username
              relayAddr := relayAddr
              nonce := auth.nonce
              expiresAt := env.ownerAt + lifetime * SECOND
              permissions := .empty
              channelsToPeer := .empty
              peerToChannel := .empty }
          let reply := buildSuccessHeader METHOD_ALLOCATE msg.txid
          let reply := appendAttrXorAddr reply ATTR_XOR_RELAYED_ADDRESS relayAddr msg.txid
          let reply := appendAttrXorAddr reply ATTR_XOR_MAPPED_ADDRESS client msg.txid
          let reply := appendAttrLifetime reply lifetime
          ({ s.enter client fresh with challenges := s.challenges.erase client },
            TurnServer.sealReply hmac reply auth.key)

/-- Only a lifetime of 0 takes the allocation out of the table. -/
def handleRefresh (hmac : Hmac) (s : Server) (msg : ParsedStun) (client : SocketAddr) (env : Env) :
    Server × Bytes :=
  match s.view.authenticateOnAllocation hmac msg client env with
  | .error (v, reply) => ({ s with challenges := v.challenges }, reply)
  | .ok auth =>
    if TurnServer.requestedLifetime msg = 0 then
      (s.release client, TurnServer.sealReply hmac
        (appendAttrLifetime (buildSuccessHeader METHOD_REFRESH msg.txid) 0) auth.key)
    else
      let r := s.view.handleRefresh hmac msg client env
      (s.adopt r.1, r.2)

def handleCreatePermission (hmac : Hmac) (s : Server) (msg : ParsedStun) (client : SocketAddr) (env : Env) :
    Server × Bytes :=
  let r := s.view.handleCreatePermission hmac msg client env
  (s.adopt r.1, r.2)

def handleChannelBind (hmac : Hmac) (s : Server) (msg : ParsedStun) (client : SocketAddr) (env : Env) :
    Server × Bytes :=
  let r := s.view.handleChannelBind hmac msg client env
  (s.adopt r.1, r.2)

def dispatch (hmac : Hmac) (s : Server) (bytes : Bytes) (client : SocketAddr) (env : Env) :
    Server × Option Bytes × Option Relayed :=
  if TurnServer.isChannelData bytes then (s, none, s.view.handleChannelData bytes client env.applyAt)
  else
    match ParsedStun.parse bytes with
    | none => (s, none, none)
    | some msg =>
      let answered (r : Server × Bytes) := (r.1, some r.2, none)
      if msg.kind = CLASS_REQUEST then
        if msg.method = METHOD_ALLOCATE then answered (s.handleAllocate hmac msg client env)
        else if msg.method = METHOD_REFRESH then answered (s.handleRefresh hmac msg client env)
        else if msg.method = METHOD_CREATE_PERMISSION then
          answered (s.handleCreatePermission hmac msg client env)
        else if msg.method = METHOD_CHANNEL_BIND then answered (s.handleChannelBind hmac msg client env)
        else answered (s, buildError msg.method msg.txid 400 "Bad Request")
      else if msg.kind = CLASS_INDICATION ∧ msg.method = METHOD_SEND then
        (s, none, s.view.handleSend msg client env.applyAt)
      else (s, none, none)

def step (hmac : Hmac) (s : Server) : Action → Server × Option Relayed
  | .datagram bytes client env =>
    let r := s.dispatch hmac bytes client env
    (r.1, r.2.2)
  | .peer client peer data now txid => (s, s.view.relayPeerToClient client peer data now txid)
  | .sweep now => (s.sweep now, none)
  | .shutdown => (s.shutdownAllocations, none)

def next (hmac : Hmac) (s : Server) (a : Action) : Option Server := some (s.step hmac a).1

/-! ## the same server -/

variable {hmac : Hmac} {s : Server} {msg : ParsedStun} {client : SocketAddr} {env : Env}

/-- The clients with an allocation, and all that is not about allocations or nonces, are the same. -/
structure Keeps (t v : TurnServer) : Prop where
  realm : v.realm = t.realm
  relayIp : v.relayIp = t.relayIp
  allocationLifetime : v.allocationLifetime = t.allocationLifetime
  credentials : v.credentials = t.credentials
  clients : ∀ k, (v.allocations k).isSome = (t.allocations k).isSome

theorem Keeps.refl (t : TurnServer) : Keeps t t := ⟨rfl, rfl, rfl, rfl, fun _ => rfl⟩

variable {as : List Action} {s' : Server} {k : SocketAddr} {t : TurnServer} {r : TurnServer × Bytes}

theorem Keeps.setAllocation {a : Allocation} (a' : Allocation)
    (h : t.allocations client = some a) : Keeps t (t.setAllocation client a') := by
  refine ⟨rfl, rfl, rfl, rfl, fun k => ?_⟩
  simp only [TurnServer.setAllocation, Table.insert_apply]
  split
  · next hk => rw [hk, h, Option.isSome_some, Option.isSome_some]
  · rfl

theorem refused_eq
    (h : t.authenticate hmac msg client env = .error r) : r.1 = { t with challenges := r.1.challenges } := by
  unfold TurnServer.authenticate at h
  repeat' split at h
  all_goals first
    | contradiction
    | obtain rfl := Except.error.inj h; rfl

theorem refused_on_eq (h : t.authenticateOnAllocation hmac msg client env = .error r) :
    r.1 = { t with challenges := r.1.challenges } := by
  unfold TurnServer.authenticateOnAllocation at h
  cases hauth : t.authenticate hmac msg client env with
  | error r' =>
    rw [hauth] at h
    obtain rfl : r' = r := Except.error.inj h
    exact refused_eq hauth
  | ok auth =>
    rw [hauth] at h
    simp only [bind, Except.bind] at h
    repeat' split at h
    all_goals first
      | contradiction
      | obtain rfl := Except.error.inj h; rfl

theorem keeps_refused
    (h : t.authenticateOnAllocation hmac msg client env = .error r) : Keeps t r.1 := by
  rw [refused_on_eq h]
  exact ⟨rfl, rfl, rfl, rfl, fun _ => rfl⟩

theorem keeps_handleCreatePermission (t : TurnServer) :
    Keeps t (t.handleCreatePermission hmac msg client env).1 := by
  unfold TurnServer.handleCreatePermission
  split
  · next r hauth => exact keeps_refused hauth
  · split
    · exact .refl t
    · split
      · exact .refl t
      · next a ha => exact .setAllocation _ ha

theorem keeps_handleChannelBind (t : TurnServer) : Keeps t (t.handleChannelBind hmac msg client env).1 := by
  unfold TurnServer.handleChannelBind
  split
  · next r hauth => exact keeps_refused hauth
  · dsimp only
    split
    · exact .refl t
    · split
      · exact .refl t
      · next a ha =>
        split
        · exact .setAllocation _ ha
        · exact .setAllocation _ ha

theorem keeps_handleRefresh (t : TurnServer) (h : TurnServer.requestedLifetime msg ≠ 0) :
    Keeps t (t.handleRefresh hmac msg client env).1 := by
  unfold TurnServer.handleRefresh
  split
  · next r hauth => exact keeps_refused hauth
  · dsimp only
    rw [if_neg h]
    split
    · exact .refl t
    · next a ha => exact .setAllocation _ ha

theorem view_adopt {v : TurnServer} (h : Keeps s.view v) : (s.adopt v).view = v := by
  obtain ⟨hrealm, hip, hlifetime, hcredentials, hclients⟩ := h
  have hallocations : (s.adopt v).view.allocations = v.allocations := by
    funext k
    have hk := hclients k
    simp only [view, adopt, KeyMap.lookup_mapVals, Option.map_map] at hk ⊢
    cases hlookup : s.allocations.lookup k with
    | none =>
      rw [hlookup] at hk
      have hnone : v.allocations k = none := by simpa using hk
      rw [hnone, Option.map_none]
    | some e =>
      rw [hlookup] at hk
      obtain ⟨a, ha⟩ := Option.isSome_iff_exists.mp hk
      simp [ha]
  calc (s.adopt v).view = { v with allocations := (s.adopt v).view.allocations } := by
        simp only [view, adopt] at hrealm hip hlifetime hcredentials ⊢
        rw [hrealm, hip, hlifetime, hcredentials]
    _ = v := by rw [hallocations]

theorem view_refused (h : r.1 = { s.view with challenges := r.1.challenges }) :
    ({ s with challenges := r.1.challenges } : Server).view = r.1 := by
  rw [h]
  rfl

section

variable (s : Server) (client : SocketAddr)

theorem allocations_enter (a : Allocation) :
    (s.enter client a).allocations = s.allocations.insert client ⟨a, s.cancelled.length⟩ := by
  unfold enter
  split <;> rfl

theorem view_enter (a : Allocation) : (s.enter client a).view = s.view.setAllocation client a := by
  have hlookup : (s.enter client a).view.allocations = (s.view.setAllocation client a).allocations := by
    funext k
    simp only [view, TurnServer.setAllocation, Table.insert_apply, allocations_enter, KeyMap.lookup_insert_apply]
    split <;> rfl
  calc (s.enter client a).view = { s.view with allocations := (s.enter client a).view.allocations } := by
        unfold enter
        split <;> rfl
    _ = s.view.setAllocation client a := by rw [hlookup]; rfl

theorem view_release :
    (s.release client).view = { s.view with allocations := s.view.allocations.erase client } := by
  have hlookup : (s.release client).view.allocations = s.view.allocations.erase client := by
    funext k
    unfold release
    split
    · simp only [view, Table.erase_apply, KeyMap.lookup_erase_apply]
      split <;> rfl
    · next hnone =>
      simp only [view, Table.erase_apply]
      split
      · next hk => rw [hk, hnone, Option.map_none]
      · rfl
  calc (s.release client).view = { s.view with allocations := (s.release client).view.allocations } := by
        unfold release
        split <;> rfl
    _ = _ := by rw [hlookup]

end

section

variable (s : Server) (es : List Entry)

theorem cancelAll_eq : s.cancelAll es = { s with cancelled := (s.cancelAll es).cancelled } := by
  induction es generalizing s with
  | nil => rfl
  | cons e es ih =>
    show (s.cancel e.task).cancelAll es = _
    rw [ih]
    rfl

@[simp] theorem cancelAll_realm : (s.cancelAll es).realm = s.realm := by
  rw [cancelAll_eq]

@[simp] theorem cancelAll_relayIp : (s.cancelAll es).relayIp = s.relayIp := by
  rw [cancelAll_eq]

@[simp] theorem cancelAll_allocationLifetime :
    (s.cancelAll es).allocationLifetime = s.allocationLifetime := by
  rw [cancelAll_eq]

@[simp] theorem cancelAll_credentials : (s.cancelAll es).credentials = s.credentials := by
  rw [cancelAll_eq]

@[simp] theorem cancelAll_challenges : (s.cancelAll es).challenges = s.challenges := by
  rw [cancelAll_eq]

end

theorem view_sweep (s : Server) (now : Nat) : (s.sweep now).view = s.view.sweep now := by
  have hlookup : (s.sweep now).view.allocations = (s.view.sweep now).allocations := by
    funext k
    simp only [view, sweep, TurnServer.sweep, KeyMap.lookup_mapVals, KeyMap.lookup_retain_apply]
    cases s.allocations.lookup k with
    | none => rfl
    | some e => cases hlive : e.allocation.isLive now <;> simp [Option.filter, hlive]
  calc (s.sweep now).view = { s.view.sweep now with allocations := (s.sweep now).view.allocations } := by
        simp only [view, sweep, TurnServer.sweep, cancelAll_realm, cancelAll_relayIp,
          cancelAll_allocationLifetime, cancelAll_credentials]
    _ = s.view.sweep now := by rw [hlookup]

theorem view_shutdownAllocations (s : Server) : s.shutdownAllocations.view = s.view.shutdownAllocations := by
  simp only [view, shutdownAllocations, TurnServer.shutdownAllocations, cancelAll_realm, cancelAll_relayIp,
    cancelAll_allocationLifetime, cancelAll_credentials, cancelAll_challenges]
  rfl

/-- What a request does to the whole server and to the server without tasks and gauge is the same. -/
def Same (r : Server × Bytes) (v : TurnServer × Bytes) : Prop := r.1.view = v.1 ∧ r.2 = v.2

theorem same_handleAllocate :
    Same (s.handleAllocate hmac msg client env) (s.view.handleAllocate hmac msg client env) := by
  have hlive : ((s.allocations.lookup client).any fun e => e.allocation.isLive env.ownerAt) =
      ((s.view.allocations client).any fun a => a.isLive env.ownerAt) := by
    simp only [view, Option.any_map]
  unfold handleAllocate TurnServer.handleAllocate
  rw [hlive]
  split
  · exact ⟨rfl, rfl⟩
  · cases hauth : s.view.authenticate hmac msg client env with
    | error refused => exact ⟨view_refused (refused_eq hauth), rfl⟩
    | ok auth =>
      dsimp only
      split
      · exact ⟨rfl, rfl⟩
      · cases env.relay with
        | bindFailed => exact ⟨rfl, rfl⟩
        | noAddress => exact ⟨rfl, rfl⟩
        | bound port =>
          refine ⟨?_, rfl⟩
          -- the nonce issued to the client is spent
          dsimp only
          rw [← view_enter]
          rfl

theorem same_handleRefresh :
    Same (s.handleRefresh hmac msg client env) (s.view.handleRefresh hmac msg client env) := by
  unfold handleRefresh
  split
  · next v reply hauth =>
    refine ⟨?_, ?_⟩
    · rw [view_refused (refused_on_eq hauth), TurnServer.handleRefresh, hauth]
    · rw [TurnServer.handleRefresh, hauth]
  · next auth hauth =>
    split
    · next hzero =>
      refine ⟨?_, ?_⟩
      · rw [view_release, TurnServer.handleRefresh, hauth]
        simp only [hzero, if_pos]
      · rw [TurnServer.handleRefresh, hauth]
        simp only [hzero, if_pos]
    · next hpositive => exact ⟨view_adopt (keeps_handleRefresh _ hpositive), rfl⟩

theorem same_handleCreatePermission :
    Same (s.handleCreatePermission hmac msg client env) (s.view.handleCreatePermission hmac msg client env) :=
  ⟨view_adopt (keeps_handleCreatePermission _), rfl⟩

theorem same_handleChannelBind :
    Same (s.handleChannelBind hmac msg client env) (s.view.handleChannelBind hmac msg client env) :=
  ⟨view_adopt (keeps_handleChannelBind _), rfl⟩

/-- A datagram is answered and relayed as by the server without tasks and gauge. -/
theorem view_dispatch (hmac : Hmac) (client : SocketAddr) (env : Env) (s : Server) (bytes : Bytes) :
    let r := s.dispatch hmac bytes client env
    (r.1.view, r.2) = s.view.dispatch hmac bytes client env := by
  have hanswered {r : Server × Bytes} {v : TurnServer × Bytes} (h : Same r v) :
      (r.1.view, some r.2, (none : Option Relayed)) = (v.1, some v.2, none) := by
    rw [h.1, h.2]
  simp only [dispatch, TurnServer.dispatch]
  split
  · rfl
  · cases ParsedStun.parse bytes with
    | none => rfl
    | some msg =>
      dsimp only
      split
      · split
        · exact hanswered same_handleAllocate
        · split
          · exact hanswered same_handleRefresh
          · split
            · exact hanswered same_handleCreatePermission
            · split
              · exact hanswered same_handleChannelBind
              · rfl
      · split
        · rfl
        · rfl

/-- **The server refines the one without tasks and gauge.** -/
theorem view_step (s : Server) (a : Action) :
    ((s.step hmac a).1.view, (s.step hmac a).2) = s.view.step hmac a := by
  cases a with
  | datagram bytes client env =>
    have hdispatch := view_dispatch hmac client env s bytes
    show ((s.dispatch hmac bytes client env).1.view, (s.dispatch hmac bytes client env).2.2) =
      ((s.view.dispatch hmac bytes client env).1, (s.view.dispatch hmac bytes client env).2.2)
    rw [← hdispatch]
  | peer client peer data now txid => rfl
  | sweep now => exact congrArg (·, none) (view_sweep s now)
  | shutdown => exact congrArg (·, none) (view_shutdownAllocations s)

/-! ## what is kept -/

/-- The relay task of a client's allocation. -/
def task (s : Server) (client : SocketAddr) : Option Nat := (s.allocations.lookup client).map Entry.task

/-- The task has been spawned and runs. -/
def Runs (s : Server) (t : Nat) : Prop := s.cancelled[t]? = some false

/-- The gauge counts the table, and the tasks that run are those of its entries. -/
structure Accounted (s : Server) : Prop where
  gauge : s.gauge = s.allocations.len
  runs : ∀ t, s.Runs t ↔ ∃ client, s.task client = some t
  own : ∀ k k' t, s.task k = some t → s.task k' = some t → k = k'

theorem runs_cancel (s : Server) (t t' : Nat) : (s.cancel t).Runs t' ↔ s.Runs t' ∧ t ≠ t' := by
  simp only [Runs, cancel, List.getElem?_set]
  by_cases h : t = t'
  · simp [h]
  · simp [h]

theorem runs_cancelAll (s : Server) (es : List Entry) (t : Nat) :
    (s.cancelAll es).Runs t ↔ s.Runs t ∧ ∀ e ∈ es, e.task ≠ t := by
  induction es generalizing s with
  | nil => simp [cancelAll]
  | cons e es ih =>
    show ((s.cancel e.task).cancelAll es).Runs t ↔ _
    rw [ih, runs_cancel, List.forall_mem_cons, and_assoc]

theorem runs_lt {t : Nat} (h : s.Runs t) : t < s.cancelled.length :=
  (List.getElem?_eq_some_iff.mp h).1

theorem accounted_new (config : TurnServerConfig) : (new config).Accounted where
  gauge := rfl
  runs t := by simp [Runs, task, new]
  own k k' t h := by simp [task, new] at h

theorem task_eq_some {t : Nat} :
    s.task client = some t ↔ ∃ e, s.allocations.lookup client = some e ∧ e.task = t :=
  Option.map_eq_some_iff

/-- Entries are dropped: their tasks are cancelled, and the gauge falls by as many. -/
theorem Accounted.drop (h : s.Accounted) (es : List Entry)
    (hcancelled : s'.cancelled = (s.cancelAll es).cancelled) (hgauge : s'.gauge = s'.allocations.len)
    (htask : ∀ k t, s'.task k = some t ↔ s.task k = some t ∧ ∀ e ∈ es, e.task ≠ t) : s'.Accounted where
  gauge := hgauge
  runs t := by
    have hruns : s'.Runs t ↔ (s.cancelAll es).Runs t := by rw [Runs, Runs, hcancelled]
    rw [hruns, runs_cancelAll, h.runs]
    simp only [htask, exists_and_right]
  own k k' t hk hk' := h.own k k' t ((htask k t).mp hk).1 ((htask k' t).mp hk').1

theorem Accounted.keep (h : s.Accounted) (hcancelled : s'.cancelled = s.cancelled)
    (hgauge : s'.gauge = s.gauge) (hlen : s'.allocations.len = s.allocations.len)
    (htask : ∀ k, s'.task k = s.task k) : s'.Accounted :=
  h.drop [] hcancelled (by rw [hgauge, h.gauge, hlen]) fun k t => by simp [htask]

theorem task_adopt (s : Server) (v : TurnServer) (k : SocketAddr) : (s.adopt v).task k = s.task k := by
  simp only [task, Server.adopt, KeyMap.lookup_mapVals, Option.map_map]
  rfl

theorem Accounted.adopt (h : s.Accounted) (v : TurnServer) : (s.adopt v).Accounted :=
  h.keep rfl rfl (KeyMap.len_mapVals _ _) (task_adopt s v)

/-- Which of the entries are dropped is decided by client: a task is that of one client. -/
theorem Accounted.task_ne {e : Entry} (h : s.Accounted) (he : s.allocations.lookup k = some e)
    {k' : SocketAddr} {e' : Entry} (he' : s.allocations.lookup k' = some e') (hne : k' ≠ k) :
    e'.task ≠ e.task :=
  fun heq => hne (h.own k' k e.task (task_eq_some.mpr ⟨e', he', heq⟩) (task_eq_some.mpr ⟨e, he, rfl⟩))

theorem Accounted.release (h : s.Accounted) (client : SocketAddr) : (s.release client).Accounted := by
  unfold Server.release
  split
  · next e he =>
    have hlen := KeyMap.len_erase he
    refine h.drop [e] rfl ?_ fun k t => ?_
    · show s.gauge - 1 = (KeyMap.len (s.allocations.erase client) : Int)
      rw [h.gauge]
      omega
    · simp only [task_eq_some, KeyMap.lookup_erase_apply, List.forall_mem_singleton]
      split
      · next hk =>
        subst hk
        simp [he]
      · next hk =>
        constructor
        · rintro ⟨e', he', rfl⟩
          exact ⟨⟨e', he', rfl⟩, (h.task_ne he he' hk).symm⟩
        · exact fun h => h.1
  · exact h

theorem task_release (s : Server) (client k : SocketAddr) :
    (s.release client).task k = if k = client then none else s.task k := by
  unfold Server.release
  split
  · simp only [task, KeyMap.lookup_erase_apply]
    split
    · rfl
    · rfl
  · next hnone =>
    split
    · next hk => rw [hk, task, hnone, Option.map_none]
    · rfl

theorem task_sweep {now t : Nat} : (s.sweep now).task k = some t ↔
      ∃ e, s.allocations.lookup k = some e ∧ e.allocation.isLive now ∧ e.task = t := by
  simp [task, Server.sweep, KeyMap.lookup_mapVals, KeyMap.lookup_retain_apply, Option.filter_eq_some_iff,
    and_assoc]

theorem Accounted.sweep (h : s.Accounted) (now : Nat) : (s.sweep now).Accounted := by
  have hlen := KeyMap.len_retain (fun _ e => e.allocation.isLive now) s.allocations
  have hmem (e : Entry) : e ∈ s.expired now ↔
      ∃ k, s.allocations.lookup k = some e ∧ e.allocation.isLive now = false := by
    simp only [expired, List.mem_map, List.mem_filter, Bool.not_eq_true']
    constructor
    · rintro ⟨⟨k, e'⟩, ⟨hentry, hlive⟩, rfl⟩
      exact ⟨k, KeyMap.mem_entries_iff.mp hentry, hlive⟩
    · rintro ⟨k, hlookup, hlive⟩
      exact ⟨⟨k, e⟩, ⟨KeyMap.mem_entries_iff.mpr hlookup, hlive⟩, rfl⟩
  refine h.drop (s.expired now) rfl ?_ fun k t => ?_
  · simp only [Server.sweep, KeyMap.len_mapVals, expired, List.length_map, h.gauge]
    omega
  · rw [task_sweep, task_eq_some]
    constructor
    · rintro ⟨e, he, hlive, rfl⟩
      refine ⟨⟨e, he, rfl⟩, fun e' he' heq => ?_⟩
      obtain ⟨k', hk', hdead⟩ := (hmem e').mp he'
      obtain rfl : k' = k := h.own k' k e.task (task_eq_some.mpr ⟨e', hk', heq⟩) (task_eq_some.mpr ⟨e, he, rfl⟩)
      obtain rfl := Option.mem_unique he hk'
      rw [hlive] at hdead
      contradiction
    · rintro ⟨⟨e, he, rfl⟩, hkept⟩
      refine ⟨e, he, ?_, rfl⟩
      by_contra hdead
      exact hkept e ((hmem e).mpr ⟨k, he, by simpa using hdead⟩) rfl

theorem Accounted.shutdownAllocations (h : s.Accounted) : s.shutdownAllocations.Accounted := by
  refine h.drop (s.allocations.entries.map fun e => e.2) rfl ?_ fun k t => ?_
  · show s.gauge - s.allocations.len = 0
    rw [h.gauge, sub_self]
  · have hempty : s.shutdownAllocations.task k = none := rfl
    rw [hempty]
    constructor
    · intro hnone
      contradiction
    · rintro ⟨htask, hkept⟩
      obtain ⟨e, he, rfl⟩ := task_eq_some.mp htask
      exact absurd rfl (hkept e (List.mem_map.mpr ⟨⟨k, e⟩, KeyMap.mem_entries_iff.mpr he, rfl⟩))

theorem task_enter (s : Server) (client k : SocketAddr) (a : Allocation) :
    (s.enter client a).task k = if k = client then some s.cancelled.length else s.task k := by
  simp only [task, allocations_enter, KeyMap.lookup_insert_apply]
  split
  · rfl
  · rfl

/-- A task is spawned, and the one of an entry that is replaced is cancelled. -/
theorem runs_enter (s : Server) (client : SocketAddr) (a : Allocation) (t : Nat) :
    (s.enter client a).Runs t ↔ (s.Runs t ∨ t = s.cancelled.length) ∧ s.task client ≠ some t := by
  have hspawn : (s.cancelled ++ [false])[t]? = some false ↔ s.Runs t ∨ t = s.cancelled.length := by
    simp only [Runs, List.getElem?_append, List.getElem?_singleton, List.getElem?_eq_some_iff]
    grind
  unfold enter
  dsimp only
  split
  · next old hold =>
    rw [runs_cancel, task, hold]
    simp only [Runs, Option.map_some, Option.some.injEq, ne_eq]
    rw [hspawn, Runs]
  · next hnone =>
    simp only [Runs, task, hnone, Option.map_none]
    rw [hspawn, Runs]
    simp

theorem Accounted.enter (h : s.Accounted) (client : SocketAddr) (a : Allocation) :
    (s.enter client a).Accounted where
  gauge := by
    have hgauge := h.gauge
    rw [allocations_enter]
    unfold Server.enter
    dsimp only
    split
    · next old hold => rw [KeyMap.len_insert_of_some hold]; exact hgauge
    · next hnone => rw [KeyMap.len_insert hnone]; push_cast; rw [hgauge]
  runs t := by
    simp only [runs_enter, task_enter, h.runs]
    constructor
    · rintro ⟨⟨k, hk⟩ | rfl, hne⟩
      · have hclient : k ≠ client := by
          rintro rfl
          exact hne hk
        exact ⟨k, by rwa [if_neg hclient]⟩
      · exact ⟨client, if_pos rfl⟩
    · rintro ⟨k, hk⟩
      split at hk
      · obtain rfl := Option.some.inj hk
        exact ⟨.inr rfl, fun hown => absurd (runs_lt ((h.runs _).mpr ⟨client, hown⟩)) (lt_irrefl _)⟩
      · next hclient => exact ⟨.inl ⟨k, hk⟩, fun hown => hclient (h.own k client t hk hown)⟩
  own k k' t hk hk' := by
    have hnew {k : SocketAddr} (hk : s.task k = some s.cancelled.length) : False :=
      lt_irrefl _ (runs_lt ((h.runs _).mpr ⟨k, hk⟩))
    rw [task_enter] at hk hk'
    split at hk
    · next hclient =>
      obtain rfl := Option.some.inj hk
      split at hk'
      · next hclient' => rw [hclient, hclient']
      · exact absurd hk' hnew
    · split at hk'
      · obtain rfl := Option.some.inj hk'
        exact absurd hk hnew
      · exact h.own k k' t hk hk'

/-! ## runs -/

/-- What an action can do to the table, to the tasks and to the gauge. -/
inductive Route (s : Server) : Server → Prop
  | challenge (c : Table SocketAddr (Text × Nat)) : Route s { s with challenges := c }
  | adopt (v : TurnServer) : Route s (s.adopt v)
  | enter (client : SocketAddr) (a : Allocation) (c : Table SocketAddr (Text × Nat)) :
      Route s { s.enter client a with challenges := c }
  | release (client : SocketAddr) : Route s (s.release client)
  | sweep (now : Nat) : Route s (s.sweep now)
  | shutdown : Route s s.shutdownAllocations

theorem Route.refl (s : Server) : Route s s := .challenge s.challenges

theorem route_handleAllocate : Route s (s.handleAllocate hmac msg client env).1 := by
  unfold handleAllocate
  split
  · exact .refl s
  · split
    · exact .challenge _
    · split
      · exact .refl s
      · split
        · exact .refl s
        · exact .refl s
        · exact .enter _ _ _

theorem route_handleRefresh : Route s (s.handleRefresh hmac msg client env).1 := by
  unfold handleRefresh
  split
  · exact .challenge _
  · split
    · exact .release client
    · exact .adopt _

theorem route_step (hmac : Hmac) (s : Server) (a : Action) : Route s (s.step hmac a).1 := by
  cases a with
  | peer client peer data now txid => exact .refl s
  | sweep now => exact .sweep now
  | shutdown => exact .shutdown
  | datagram bytes client env =>
    simp only [step, dispatch]
    split
    · exact .refl s
    · split
      · exact .refl s
      · split
        · split
          · exact route_handleAllocate
          · split
            · exact route_handleRefresh
            · split
              · exact .adopt _
              · split
                · exact .adopt _
                · exact .refl s
        · split
          · exact .refl s
          · exact .refl s

theorem Accounted.route (h : s.Accounted) (hroute : Route s s') : s'.Accounted := by
  cases hroute with
  | challenge c => exact h.keep rfl rfl rfl fun k => rfl
  | adopt v => exact h.adopt v
  | enter client a c => exact (h.enter client a).keep rfl rfl rfl fun k => rfl
  | release client => exact h.release client
  | sweep now => exact h.sweep now
  | shutdown => exact h.shutdownAllocations

theorem accounted_exec (h : s.Accounted)
    (hexec : exec (next hmac) s as = some s') : s'.Accounted := by
  refine exec_invariant (fun s a s' h hstep => ?_) hexec h
  obtain rfl := Option.some.inj hstep
  exact h.route (route_step hmac s a)

theorem length_route (h : Route s s') : s.cancelled.length ≤ s'.cancelled.length := by
  have hcancelAll (s : Server) (es : List Entry) : (s.cancelAll es).cancelled.length = s.cancelled.length := by
    induction es generalizing s with
    | nil => rfl
    | cons e es ih => exact (ih (s.cancel e.task)).trans List.length_set
  cases h with
  | challenge c => exact le_rfl
  | adopt v => exact le_rfl
  | sweep now => exact (hcancelAll _ _).ge
  | shutdown => exact (hcancelAll _ _).ge
  | release client =>
    unfold release
    split
    · exact (hcancelAll s [_]).ge
    · exact le_rfl
  | enter client a c =>
    show s.cancelled.length ≤ (s.enter client a).cancelled.length
    unfold enter
    dsimp only
    split
    · simp [cancel]
    · simp

theorem task_route {t : Nat} (h : Route s s') (hk : s'.task k = some t) :
    s.task k = some t ∨ t = s.cancelled.length := by
  cases h with
  | challenge c => exact .inl hk
  | adopt v => exact .inl ((task_adopt s v k).symm.trans hk)
  | shutdown => contradiction
  | sweep now =>
    obtain ⟨e, he, -, htask⟩ := task_sweep.mp hk
    exact .inl (task_eq_some.mpr ⟨e, he, htask⟩)
  | release client =>
    rw [task_release] at hk
    split at hk
    · contradiction
    · exact .inl hk
  | enter client a c =>
    have henter : (s.enter client a).task k = some t := hk
    rw [task_enter] at henter
    split at henter
    · exact .inr (Option.some.inj henter).symm
    · exact .inl henter

theorem Accounted.runs_route {t : Nat} (h : s.Accounted) (hroute : Route s s')
    (hk : s.task k = some t) : s'.Runs t ↔ s'.task k = some t := by
  rw [(h.route hroute).runs]
  constructor
  · rintro ⟨k', hk'⟩
    obtain hown | rfl := task_route hroute hk'
    · rwa [← h.own k' k t hown hk]
    · exact absurd (runs_lt ((h.runs _).mpr ⟨k, hk⟩)) (lt_irrefl _)
  · exact fun hk' => ⟨k, hk'⟩

theorem Accounted.cancelled_route {t : Nat} (h : s.Accounted) (hroute : Route s s')
    (ht : t < s.cancelled.length) (hruns : s'.Runs t) : s.Runs t := by
  obtain ⟨k, hk⟩ := ((h.route hroute).runs t).mp hruns
  obtain hown | rfl := task_route hroute hk
  · exact (h.runs t).mpr ⟨k, hown⟩
  · exact absurd ht (lt_irrefl _)

theorem cancelled_iff {t : Nat} (ht : t < s.cancelled.length) : s.cancelled[t]? = some true ↔ ¬ s.Runs t := by
  simp [Runs, List.getElem?_eq_getElem ht]

theorem Accounted.cancelled_exec {t : Nat} (h : s.Accounted)
    (hexec : exec (next hmac) s as = some s') (hcancelled : s.cancelled[t]? = some true) :
    s'.cancelled[t]? = some true := by
  induction as generalizing s with
  | nil =>
    obtain rfl := Option.some.inj hexec
    exact hcancelled
  | cons a as ih =>
    obtain ⟨s₁, hs₁, hexec⟩ := Option.bind_eq_some_iff.mp hexec
    obtain rfl := Option.some.inj hs₁
    have hroute := route_step hmac s a
    have ht : t < s.cancelled.length := (List.getElem?_eq_some_iff.mp hcancelled).1
    refine ih (h.route hroute) hexec ((cancelled_iff (ht.trans_le (length_route hroute))).mpr fun hruns => ?_)
    exact (cancelled_iff ht).mp hcancelled (h.cancelled_route hroute ht hruns)

/-! ## a refused Allocate -/

/-- The datagram is an Allocate request that is answered with an error. -/
def RefusesAllocate (hmac : Hmac) (s : Server) (bytes : Bytes) (client : SocketAddr) (env : Env) : Prop :=
  ∃ msg reply, TurnServer.isChannelData bytes = false ∧ ParsedStun.parse bytes = some msg ∧
    msg.kind = CLASS_REQUEST ∧ msg.method = METHOD_ALLOCATE ∧
    (s.dispatch hmac bytes client env).2.1 = some reply ∧ replyClass reply = CLASS_ERROR

/-- Nothing has become of table, tasks and gauge. -/
structure Unmoved (s s' : Server) : Prop where
  allocations : s'.allocations = s.allocations
  cancelled : s'.cancelled = s.cancelled
  gauge : s'.gauge = s.gauge

theorem replyClass_success (txid : TransactionId) (kind kind' : Nat) (addr addr' : SocketAddr)
    (lifetime : Nat) (key : Bytes) :
    replyClass (TurnServer.sealReply hmac (appendAttrLifetime (appendAttrXorAddr (appendAttrXorAddr
      (buildSuccessHeader METHOD_ALLOCATE txid) kind addr txid) kind' addr' txid) lifetime) key) =
        CLASS_SUCCESS := by
  have hheader : (buildSuccessHeader METHOD_ALLOCATE txid).length = HEADER_LEN := length_header _ _ _
  have hattr {buf : Bytes} (kind : Nat) (value : Bytes) (h : HEADER_LEN ≤ buf.length) :
      HEADER_LEN ≤ (appendAttr buf kind value).length := by
    simp only [appendAttr, List.length_append]
    omega
  have hfirst := hattr kind (xorMappedValue addr txid) hheader.ge
  have hsecond := hattr kind' (xorMappedValue addr' txid) hfirst
  have hthird := hattr ATTR_LIFETIME (beBytes 4 lifetime) hsecond
  simp only [HEADER_LEN] at hheader hfirst hsecond hthird
  simp only [appendAttrXorAddr, appendAttrLifetime]
  rw [replyClass, slice_sealReply hmac key (by omega), slice_appendAttr _ _ (by omega),
    slice_appendAttr _ _ (by omega), slice_appendAttr _ _ (by omega)]
  simp [buildSuccessHeader, header, slice]
  decide

theorem unmoved_of_refused (h : replyClass (s.handleAllocate hmac msg client env).2 = CLASS_ERROR) :
    Unmoved s (s.handleAllocate hmac msg client env).1 := by
  unfold handleAllocate at h ⊢
  split at h
  · next htransport =>
    rw [if_pos htransport]
    exact ⟨rfl, rfl, rfl⟩
  · next htransport =>
    rw [if_neg htransport]
    cases hauth : s.view.authenticate hmac msg client env with
    | error refused => exact ⟨rfl, rfl, rfl⟩
    | ok auth =>
      rw [hauth] at h
      dsimp only at h ⊢
      split
      · exact ⟨rfl, rfl, rfl⟩
      · next hfree =>
        rw [if_neg hfree] at h
        cases hrelay : env.relay with
        | bindFailed => exact ⟨rfl, rfl, rfl⟩
        | noAddress => exact ⟨rfl, rfl, rfl⟩
        | bound port =>
          -- what is entered is answered with a success
          rw [hrelay] at h
          dsimp only at h
          rw [replyClass_success] at h
          contradiction

theorem unmoved_of_refuses {bytes : Bytes} (h : RefusesAllocate hmac s bytes client env) :
    Unmoved s (s.dispatch hmac bytes client env).1 := by
  obtain ⟨msg, reply, hdata, hparse, hkind, hmethod, hreply, hclass⟩ := h
  have hdispatch : s.dispatch hmac bytes client env =
      ((s.handleAllocate hmac msg client env).1, some (s.handleAllocate hmac msg client env).2, none) := by
    simp only [dispatch, hdata, hparse, hkind, hmethod]
    rfl
  rw [hdispatch] at hreply ⊢
  obtain rfl := Option.some.inj hreply
  exact unmoved_of_refused hclass

/-! ## the result -/

/-- **Allocation accounting.**  In every reachable state of the server the gauge
is the number of entries of the table, and the relay tasks that run are those of
its entries; an action cancels the task of an allocation exactly if it takes the
allocation out of the table, and no later one revives it; and an Allocate that is
answered with an error leaves table, tasks and gauge as they were. -/
theorem allocation_accounting (hmac : Hmac) (config : TurnServerConfig) (before : List Action) (s : Server)
    (hexec : exec (next hmac) (new config) before = some s) : s.gauge = s.allocations.len ∧
    (∀ t, s.cancelled[t]? = some false ↔ ∃ client e, s.allocations.lookup client = some e ∧ e.task = t) ∧
    (∀ a client e, s.allocations.lookup client = some e →
      ((s.step hmac a).1.cancelled[e.task]? = some true ↔
        ∀ e', (s.step hmac a).1.allocations.lookup client = some e' → e'.task ≠ e.task)) ∧
    (∀ as (s' : Server) (t : Nat), exec (next hmac) s as = some s' →
      s.cancelled[t]? = some true → s'.cancelled[t]? = some true) ∧
    ∀ bytes client env, RefusesAllocate hmac s bytes client env →
      Unmoved s (s.dispatch hmac bytes client env).1 := by
  have h : s.Accounted := accounted_exec (accounted_new config) hexec
  refine ⟨h.gauge, fun t => (h.runs t).trans (exists_congr fun client => task_eq_some), ?_,
    fun as s' t hexec' hcancelled => h.cancelled_exec hexec' hcancelled,
    fun bytes client env hrefused => unmoved_of_refuses hrefused⟩
  intro a client e he
  have hroute := route_step hmac s a
  have htask : s.task client = some e.task := task_eq_some.mpr ⟨e, he, rfl⟩
  have ht : e.task < (s.step hmac a).1.cancelled.length :=
    (runs_lt ((h.runs _).mpr ⟨client, htask⟩)).trans_le (length_route hroute)
  rw [cancelled_iff ht, h.runs_route hroute htask, task_eq_some]
  exact ⟨fun hnone e' he' heq => hnone ⟨e', he', heq⟩, fun hnone ⟨e', he', heq⟩ => hnone e' he' heq⟩

/-- A refresh with lifetime 0. -/
def sampleRelease : Action :=
  .datagram (sampleRequest METHOD_REFRESH [(ATTR_LIFETIME, [0, 0, 0, 0])]) sampleClient (sampleEnv 3)

/-- An allocation is counted, and its task is cancelled when it is released. -/
theorem allocation_accounting_release :
    ∃ s e, exec (next sampleHmac) (new sampleConfig) sampleBound = some s ∧ s.gauge = 1 ∧
      s.allocations.lookup sampleClient = some e ∧ s.cancelled[e.task]? = some false ∧
      (s.step sampleHmac sampleRelease).1.cancelled[e.task]? = some true := by
  have hrun : ((exec (next sampleHmac) (new sampleConfig) sampleBound).bind fun s =>
      (s.allocations.lookup sampleClient).map fun _ =>
        (s.allocations.len, ((s.step sampleHmac sampleRelease).1.allocations.lookup sampleClient).isNone)) =
      some (1, true) := by
    decide +kernel
  obtain ⟨s, hs, hrun⟩ := Option.bind_eq_some_iff.mp hrun
  obtain ⟨e, he, hrun⟩ := Option.map_eq_some_iff.mp hrun
  obtain ⟨hlen, hnone⟩ := Prod.mk.inj hrun
  obtain ⟨hgauge, hruns, hleft, -, -⟩ := allocation_accounting sampleHmac sampleConfig sampleBound s hs
  refine ⟨s, e, hs, by rw [hgauge, hlen]; rfl, he, (hruns _).mpr ⟨sampleClient, e, he, rfl⟩,
    (hleft sampleRelease sampleClient e he).mpr fun e' he' => ?_⟩
  rw [Option.isNone_iff_eq_none.mp hnone] at he'
  cases he'

end Server

end SmithsNet.Ice.Turn
