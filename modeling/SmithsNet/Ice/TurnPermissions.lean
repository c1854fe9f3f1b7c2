import SmithsNet.Ice.Turn
import SmithsNet.Ice.Agent

/-!
# SmithsNet.Ice.TurnPermissions

What the TURN server sends on, and who allowed it.

`relayed_permitted`: in a run in which ChannelData only comes while its peer has
a permission, whatever is relayed goes between a client with a live allocation
and a peer whose IP has an unexpired permission, which a request of the
allocation's owner has installed.
`channelData_without_permission`: a channel outlives the permission that came
with it.
-/

namespace SmithsNet.Ice.Turn

open Lib SmithsNet.Core TurnServer

/-! ## runs -/

inductive Action
  /-- The server takes up a datagram of a client. -/
  | datagram (bytes : Bytes) (client : SocketAddr) (env : Env)
  /-- The relay task of a client takes up a datagram; one that was cancelled may still do so. -/
  | peer (client peer : SocketAddr) (data : Bytes) (now : Nat) (txid : TransactionId)
  | sweep (now : Nat)
  | shutdown

namespace TurnServer

/-- The state after an action, and what it relays. -/
def step (hmac : Hmac) (s : TurnServer) : Action → TurnServer × Option Relayed
  | .datagram bytes client env =>
    let r := s.dispatch hmac bytes client env
    (r.1, r.2.2)
  | .peer client peer data now txid => (s, s.relayPeerToClient client peer data now txid)
  | .sweep now => (s.sweep now, none)
  | .shutdown => (s.shutdownAllocations, none)

def next (hmac : Hmac) (s : TurnServer) (a : Action) : Option TurnServer := some (s.step hmac a).1

end TurnServer

/-- The request names a peer with this IP. -/
def ParsedStun.Names (msg : ParsedStun) (ip : IpAddr) : Prop :=
  msg.method = METHOD_CREATE_PERMISSION ∧ (∃ peer ∈ TurnServer.peersOf msg, peer.ip = ip) ∨
    msg.method = METHOD_CHANNEL_BIND ∧
      ∃ channel peer, TurnServer.bindingOf msg = some (channel, peer) ∧ peer.ip = ip

/-- The action is a request that authenticates as the user and permits the IP until `exp`. -/
def Grants (hmac : Hmac) (client : SocketAddr) (user : Text) (ip : IpAddr) (exp : Nat) (s : TurnServer)
    (a : Action) : Prop :=
  ∃ bytes env msg auth, a = .datagram bytes client env ∧ isChannelData bytes = false ∧
    ParsedStun.parse bytes = some msg ∧ msg.kind = CLASS_REQUEST ∧
    s.authenticate hmac msg client env = .ok auth ∧ auth.username = user ∧ msg.Names ip ∧
    exp = env.applyAt + PERMISSION_LIFETIME

/-- The client's allocation belongs to the user and has this permission. -/
def TurnServer.Permits (client : SocketAddr) (user : Text) (ip : IpAddr) (exp : Nat) (s : TurnServer) :
    Prop :=
  ∃ a, s.allocations client = some a ∧ a.username = user ∧ a.permissions ip = some exp

/-! ## where permissions come from -/

variable {hmac : Hmac} {s : TurnServer} {msg : ParsedStun} {client : SocketAddr} {env : Env}

theorem bind_ok {ε α β : Type} {x : Except ε α} {f : α → Except ε β} {r : β} (h : x >>= f = .ok r) :
    ∃ a, x = .ok a ∧ f a = .ok r := by
  cases x with
  | error e => contradiction
  | ok a => exact ⟨a, rfl, h⟩

variable {a : Allocation} {ip : IpAddr} {exp now : Nat} {k : SocketAddr} {user : Text}
    {r : TurnServer × Bytes}

theorem allocations_of_refused
    (h : s.authenticate hmac msg client env = .error r) : r.1.allocations = s.allocations := by
  unfold TurnServer.authenticate at h
  repeat' split at h
  all_goals first
    | contradiction
    | obtain rfl := Except.error.inj h; rfl

theorem allocations_of_refused_on (h : s.authenticateOnAllocation hmac msg client env = .error r) :
    r.1.allocations = s.allocations := by
  unfold TurnServer.authenticateOnAllocation at h
  cases hauth : s.authenticate hmac msg client env with
  | error r' =>
    rw [hauth] at h
    obtain rfl : r' = r := Except.error.inj h
    exact allocations_of_refused hauth
  | ok auth =>
    rw [hauth] at h
    simp only [bind, Except.bind] at h
    repeat' split at h
    all_goals first
      | contradiction
      | obtain rfl := Except.error.inj h; rfl

theorem owner_of_authenticateOnAllocation {auth : Authenticated}
    (h : s.authenticateOnAllocation hmac msg client env = .ok auth) :
    s.authenticate hmac msg client env = .ok auth ∧
      ∃ a, s.allocations client = some a ∧ a.isLive env.ownerAt = true ∧ a.username = auth.username := by
  obtain ⟨auth', hauth, h⟩ := bind_ok h
  split at h
  · contradiction
  · next a ha =>
    obtain ⟨ha, hlive⟩ := Option.filter_eq_some_iff.mp ha
    split at h
    · next hname =>
      obtain rfl := Except.ok.inj h
      exact ⟨hauth, a, ha, hlive, hname⟩
    · contradiction

theorem permits_setAllocation (h : (s.setAllocation client a).Permits k user ip exp) :
    s.Permits k user ip exp ∨ k = client ∧ a.username = user ∧ a.permissions ip = some exp := by
  obtain ⟨b, hb, huser, hperm⟩ := h
  simp only [TurnServer.setAllocation, Table.insert_apply] at hb
  split at hb
  · next hk =>
    obtain rfl := Option.some.inj hb
    exact .inr ⟨hk, huser, hperm⟩
  · exact .inl ⟨b, hb, huser, hperm⟩

theorem permissions_prune
    (h : (a.prune now).permissions ip = some exp) : a.permissions ip = some exp := by
  simp only [Allocation.prune, Table.retain_eq_some] at h
  exact h.1

theorem permissions_foldl {peers : List SocketAddr} {deadline : Nat} {t : Table IpAddr Nat}
    (h : peers.foldl (fun t peer => Table.insert t peer.ip deadline) t ip = some exp) :
    t ip = some exp ∨ (∃ peer ∈ peers, peer.ip = ip) ∧ exp = deadline := by
  induction peers generalizing t with
  | nil => exact .inl h
  | cons peer peers ih =>
    obtain h | ⟨⟨p, hp, hip⟩, hexp⟩ := ih h
    · simp only [Table.insert_apply] at h
      split at h
      · next hip =>
        exact .inr ⟨⟨peer, List.mem_cons_self, hip.symm⟩, (Option.some.inj h).symm⟩
      · exact .inl h
    · exact .inr ⟨⟨p, List.mem_cons_of_mem _ hp, hip⟩, hexp⟩

section Handlers

variable {k : SocketAddr} {user : Text} {ip : IpAddr} {exp : Nat}

theorem permits_of_same {s' : TurnServer} (hsame : s'.allocations = s.allocations)
    (h : s'.Permits k user ip exp) : s.Permits k user ip exp := by
  obtain ⟨a, ha, hrest⟩ := h
  exact ⟨a, hsame ▸ ha, hrest⟩

theorem permits_handleAllocate (h : (s.handleAllocate hmac msg client env).1.Permits k user ip exp) :
    s.Permits k user ip exp := by
  unfold TurnServer.handleAllocate at h
  split at h
  · exact h
  · split at h
    · next r hauth => exact permits_of_same (allocations_of_refused hauth) h
    · split at h
      · exact h
      · split at h
        · exact h
        · exact h
        · have h : (s.setAllocation client _).Permits k user ip exp := permits_of_same rfl h
          obtain h | ⟨-, -, hperm⟩ := permits_setAllocation h
          · exact h
          · contradiction

theorem permits_handleRefresh (h : (s.handleRefresh hmac msg client env).1.Permits k user ip exp) :
    s.Permits k user ip exp := by
  unfold TurnServer.handleRefresh at h
  split at h
  · next r hauth => exact permits_of_same (allocations_of_refused_on hauth) h
  · dsimp only at h
    split at h
    · obtain ⟨a, ha, hrest⟩ := h
      simp only [Table.erase_apply] at ha
      split at ha
      · contradiction
      · exact ⟨a, ha, hrest⟩
    · split at h
      · exact h
      · next a ha =>
        obtain h | ⟨rfl, huser, hperm⟩ := permits_setAllocation h
        · exact h
        · exact ⟨a, ha, huser, hperm⟩

/-- New permissions are for the peers the request names, and its sender owns the allocation. -/
theorem permits_handleCreatePermission (hmethod : msg.method = METHOD_CREATE_PERMISSION)
    (h : (s.handleCreatePermission hmac msg client env).1.Permits k user ip exp) :
    s.Permits k user ip exp ∨ k = client ∧ msg.Names ip ∧ exp = env.applyAt + PERMISSION_LIFETIME ∧
      ∃ auth, s.authenticate hmac msg client env = .ok auth ∧ auth.username = user := by
  unfold TurnServer.handleCreatePermission at h
  split at h
  · next r hauth => exact .inl (permits_of_same (allocations_of_refused_on hauth) h)
  · next auth hauth =>
    obtain ⟨hauth, b, hb, -, hname⟩ := owner_of_authenticateOnAllocation hauth
    split at h
    · exact .inl h
    · split at h
      · exact .inl h
      · next a ha =>
        obtain rfl := Option.mem_unique hb ha
        obtain h | ⟨rfl, huser, hperm⟩ := permits_setAllocation h
        · exact .inl h
        · obtain hperm | ⟨hpeer, hexp⟩ := permissions_foldl hperm
          · exact .inl ⟨b, hb, huser, hperm⟩
          · exact .inr ⟨rfl, .inl ⟨hmethod, hpeer⟩, hexp, auth, hauth, hname.symm.trans huser⟩

theorem permits_handleChannelBind (hmethod : msg.method = METHOD_CHANNEL_BIND)
    (h : (s.handleChannelBind hmac msg client env).1.Permits k user ip exp) :
    s.Permits k user ip exp ∨ k = client ∧ msg.Names ip ∧ exp = env.applyAt + PERMISSION_LIFETIME ∧
      ∃ auth, s.authenticate hmac msg client env = .ok auth ∧ auth.username = user := by
  unfold TurnServer.handleChannelBind at h
  split at h
  · next r hauth => exact .inl (permits_of_same (allocations_of_refused_on hauth) h)
  · next auth hauth =>
    obtain ⟨hauth, b, hb, -, hname⟩ := owner_of_authenticateOnAllocation hauth
    dsimp only at h
    split at h
    · exact .inl h
    · next channel peer hbinding =>
      split at h
      · exact .inl h
      · next a ha =>
        obtain rfl := Option.mem_unique hb ha
        split at h
        · -- the channel or the peer is bound elsewhere: nothing but the pruning
          obtain h | ⟨rfl, huser, hperm⟩ := permits_setAllocation h
          · exact .inl h
          · exact .inl ⟨b, hb, huser, permissions_prune hperm⟩
        · obtain h | ⟨rfl, huser, hperm⟩ := permits_setAllocation h
          · exact .inl h
          · dsimp only at hperm
            rw [Table.insert_apply] at hperm
            split at hperm
            · next hip =>
              refine .inr ⟨rfl, .inr ⟨hmethod, channel, peer, hbinding, hip.symm⟩,
                (Option.some.inj hperm).symm, auth, hauth, ?_⟩
              exact hname.symm.trans huser
            · exact .inl ⟨b, hb, huser, permissions_prune hperm⟩

end Handlers

theorem permits_step {a : Action} (h : (s.step hmac a).1.Permits k user ip exp) :
    s.Permits k user ip exp ∨ Grants hmac k user ip exp s a := by
  cases a with
  | peer client peer data now txid => exact .inl h
  | shutdown =>
    obtain ⟨a, ha, -⟩ := h
    contradiction
  | sweep now =>
    obtain ⟨a, ha, huser, hperm⟩ := h
    obtain ⟨b, hb, rfl⟩ := Option.map_eq_some_iff.mp ha
    exact .inl ⟨b, (Option.filter_eq_some_iff.mp hb).1, huser, permissions_prune hperm⟩
  | datagram bytes client env =>
    simp only [TurnServer.step, dispatch] at h
    split at h
    · exact .inl h
    · next hstun =>
      split at h
      · exact .inl h
      · next msg hparse =>
        have hgrant : k = client ∧ msg.Names ip ∧ exp = env.applyAt + PERMISSION_LIFETIME ∧
            (∃ auth, s.authenticate hmac msg client env = .ok auth ∧ auth.username = user) →
            msg.kind = CLASS_REQUEST →
            Grants hmac k user ip exp s (.datagram bytes client env) := by
          rintro ⟨rfl, hnames, hexp, auth, hauth, huser⟩ hkind
          exact ⟨bytes, env, msg, auth, rfl, by simpa using hstun, hparse, hkind, hauth, huser, hnames, hexp⟩
        split at h
        · next hkind =>
          split at h
          · exact .inl (permits_handleAllocate h)
          · split at h
            · exact .inl (permits_handleRefresh h)
            · split at h
              · next hmethod =>
                exact (permits_handleCreatePermission hmethod h).imp_right fun hg => hgrant hg hkind
              · split at h
                · next hmethod =>
                  exact (permits_handleChannelBind hmethod h).imp_right fun hg => hgrant hg hkind
                · exact .inl h
        · split at h
          · exact .inl h
          · exact .inl h

/-! ## what is relayed -/

/-- The channel a ChannelData frame is on. -/
def channelOf (bytes : Bytes) : UInt16 := UInt16.ofNat (beNat (slice bytes 0 2))

/-- ChannelData on a bound channel comes while its peer has a permission. -/
def ChannelPermitted (s : TurnServer) : Action → Prop
  | .datagram bytes client env =>
    isChannelData bytes = true → ∀ a ∈ s.allocations client, a.isLive env.applyAt = true →
      ∀ peer ∈ a.channelPeer (channelOf bytes) env.applyAt, a.permissionLive peer.ip env.applyAt = true
  | _ => True

instance (s : TurnServer) (a : Action) : Decidable (ChannelPermitted s a) :=
  match a with
  | .datagram _ _ _ => inferInstanceAs (Decidable (_ → ∀ _ ∈ _, _ → ∀ _ ∈ _, _))
  | .peer _ _ _ _ _ | .sweep _ | .shutdown => isTrue trivial

/-- The client's allocation is live and has a live permission. -/
def TurnServer.Open (s : TurnServer) (r : Relayed) : Prop :=
  ∃ a, s.allocations r.client = some a ∧ a.isLive r.now = true ∧ a.permissionLive r.peer.ip r.now = true

theorem open_of_handleSend {r : Relayed} (h : s.handleSend msg client now = some r) : s.Open r := by
  simp only [TurnServer.handleSend, Option.bind_eq_bind, Option.bind_eq_some_iff] at h
  obtain ⟨peer, -, data, -, a, ha, h⟩ := h
  obtain ⟨ha, hlive⟩ := Option.filter_eq_some_iff.mp ha
  split at h
  · next hperm =>
    obtain rfl := Option.some.inj h
    exact ⟨a, ha, hlive, hperm⟩
  · contradiction

theorem open_of_relayPeerToClient {peer : SocketAddr} {data : Bytes} {txid : TransactionId}
    {r : Relayed} (h : s.relayPeerToClient client peer data now txid = some r) : s.Open r := by
  simp only [TurnServer.relayPeerToClient, Option.bind_eq_bind, Option.bind_eq_some_iff] at h
  obtain ⟨a, ha, h⟩ := h
  obtain ⟨ha, hlive⟩ := Option.filter_eq_some_iff.mp ha
  split at h
  · next hperm =>
    obtain rfl := Option.some.inj h
    exact ⟨a, ha, hlive, hperm⟩
  · contradiction

theorem open_of_handleChannelData {bytes : Bytes} {r : Relayed}
    (h : s.handleChannelData bytes client env.applyAt = some r)
    (hdata : isChannelData bytes = true)
    (hok : ChannelPermitted s (.datagram bytes client env)) : s.Open r := by
  simp only [TurnServer.handleChannelData] at h
  split at h
  · contradiction
  · simp only [Option.bind_eq_bind, Option.bind_eq_some_iff] at h
    obtain ⟨a, ha, peer, hpeer, h⟩ := h
    obtain ⟨ha, hlive⟩ := Option.filter_eq_some_iff.mp ha
    obtain rfl := Option.some.inj h
    exact ⟨a, ha, hlive, hok hdata a ha hlive peer hpeer⟩

theorem open_of_step {a : Action} {r : Relayed} (h : (s.step hmac a).2 = some r)
    (hok : ChannelPermitted s a) : s.Open r := by
  cases a with
  | peer client peer data now txid => exact open_of_relayPeerToClient h
  | sweep now => contradiction
  | shutdown => contradiction
  | datagram bytes client env =>
    simp only [TurnServer.step, dispatch] at h
    split at h
    · next hdata => exact open_of_handleChannelData h hdata hok
    · split at h
      · contradiction
      · repeat' split at h
        all_goals first
          | contradiction
          | exact open_of_handleSend h

/-! ## the result -/

/-- **Relaying only with permission.**  In every run in which ChannelData on a
bound channel only comes while its peer has a permission: when something is
relayed between a client and a peer, the client's allocation is live, it holds a
permission for the peer's IP that has not run out, and a request authenticated
as the allocation's owner has installed it. -/
theorem relayed_permitted (hmac : Hmac) (config : TurnServerConfig) (before : List Action) (a : Action)
    (s : TurnServer) (r : Relayed)
    (hexec : exec (TurnServer.next hmac) (new config) before = some s)
    (hok : Meets (TurnServer.next hmac) ChannelPermitted (new config) (before ++ [a]))
    (hr : (s.step hmac a).2 = some r) :
    ∃ alloc exp, s.allocations r.client = some alloc ∧ alloc.isLive r.now = true ∧
      alloc.permissions r.peer.ip = some exp ∧ r.now < exp ∧
      ∃ earlier b later s₁, before = earlier ++ b :: later ∧
        exec (TurnServer.next hmac) (new config) earlier = some s₁ ∧
        Grants hmac r.client alloc.username r.peer.ip exp s₁ b := by
  obtain ⟨alloc, halloc, hlive, hperm⟩ := open_of_step hr (hok.at hexec)
  obtain ⟨exp, hexp, hnow⟩ : ∃ exp, alloc.permissions r.peer.ip = some exp ∧ r.now < exp := by
    simpa [Allocation.permissionLive, Option.any_eq_true] using hperm
  refine ⟨alloc, exp, halloc, hlive, hexp, hnow, ?_⟩
  refine exec_cause (TurnServer.Permits r.client alloc.username r.peer.ip exp) ?_ hexec ?_
    ⟨alloc, halloc, rfl, hexp⟩
  · intro s a s' hnext hpermits
    obtain rfl := Option.some.inj hnext
    exact permits_step hpermits
  · rintro ⟨a, ha, -⟩
    contradiction

/-! ## a client and its peer -/

def sampleConfig : TurnServerConfig where
  realm := ['r']
  relayIp := .v4 0x7F000001#32
  allocationLifetime := 600 * SECOND
  credentials := [⟨['u'], [7]⟩]

/-- A request of the user, signed. -/
def sampleRequest (method : Nat) (attrs : List (Nat × Bytes)) : Bytes :=
  let attrs := [(ATTR_USERNAME, [0x75]), (ATTR_REALM, [0x72]), (ATTR_NONCE, [0x6E])] ++ attrs
  let buf := attrs.foldl (fun buf a => appendAttr buf a.1 a.2) (header method CLASS_REQUEST (sampleTid 1))
  finalizeLength (appendMessageIntegrity sampleHmac buf [7])

/-- All readings of the clock at one time. -/
def sampleEnv (now : Nat) : Env := ⟨now, now, now, now, ['n'], .bound 9⟩

/-- The client, as the server sees it. -/
def sampleClient : SocketAddr := sampleAddr 1

/-- XOR-PEER-ADDRESS of the peer. -/
def samplePeer : Nat × Bytes := (ATTR_XOR_PEER_ADDRESS, xorMappedValue (sampleAddr 2) (sampleTid 1))

/-- The client is challenged, allocates and binds a channel to its peer. -/
def sampleBound : List Action :=
  [.datagram (finalizeLength (appendAttr (header METHOD_ALLOCATE CLASS_REQUEST (sampleTid 1))
      ATTR_REQUESTED_TRANSPORT [17, 0, 0, 0])) sampleClient (sampleEnv 0),
    .datagram (sampleRequest METHOD_ALLOCATE [(ATTR_REQUESTED_TRANSPORT, [17, 0, 0, 0])]) sampleClient
      (sampleEnv 1),
    .datagram (sampleRequest METHOD_CHANNEL_BIND [(ATTR_CHANNEL_NUMBER, [0x40, 0, 0, 0]), samplePeer])
      sampleClient (sampleEnv 2)]

/-- Five bytes on the channel. -/
def sampleData (now : Nat) : Action :=
  .datagram (channelDataFrame 0x4000 [1, 2, 3, 4, 5]) sampleClient (sampleEnv now)

theorem relayed_permitted_sampleData :
    ∃ s alloc exp, exec (TurnServer.next sampleHmac) (.new sampleConfig) sampleBound = some s ∧
      s.allocations sampleClient = some alloc ∧ alloc.isLive (299 * SECOND) = true ∧
      alloc.permissions (sampleAddr 2).ip = some exp ∧ 299 * SECOND < exp := by
  obtain ⟨s, hs⟩ : ∃ s, exec (TurnServer.next sampleHmac) (.new sampleConfig) sampleBound = some s :=
    ⟨_, rfl⟩
  have hrelay : (exec (TurnServer.next sampleHmac) (.new sampleConfig) sampleBound).bind (fun s =>
      (s.step sampleHmac (sampleData (299 * SECOND))).2) =
      some ⟨sampleClient, sampleAddr 2, [1, 2, 3, 4, 5], true, 299 * SECOND⟩ := by
    decide +kernel
  rw [hs, Option.bind_some] at hrelay
  obtain ⟨alloc, exp, halloc, hlive, hexp, hnow, -⟩ :=
    relayed_permitted sampleHmac sampleConfig sampleBound (sampleData (299 * SECOND)) s _ hs
      (by decide +kernel) hrelay
  exact ⟨s, alloc, exp, hs, halloc, hlive, hexp, hnow⟩

/-- The readings of the clock. -/
def Action.times : Action → List Nat
  | .datagram _ _ env => [env.nonceAt, env.issueAt, env.ownerAt, env.applyAt]
  | .peer _ _ _ now _ => [now]
  | .sweep now => [now]
  | .shutdown => []

/-- The channel is good for ten minutes, the permission that came with it for five. -/
theorem channelData_without_permission :
    ¬ ∀ (hmac : Hmac) (config : TurnServerConfig) (before : List Action) (a : Action) (s : TurnServer)
      (r : Relayed), exec (TurnServer.next hmac) (new config) before = some s →
      ((before ++ [a]).flatMap Action.times).Pairwise (· ≤ ·) → (s.step hmac a).2 = some r →
      ∃ alloc exp, s.allocations r.client = some alloc ∧ alloc.isLive r.now = true ∧
        alloc.permissions r.peer.ip = some exp ∧ r.now < exp ∧
        ∃ earlier b later s₁, before = earlier ++ b :: later ∧
          exec (TurnServer.next hmac) (new config) earlier = some s₁ ∧
          Grants hmac r.client alloc.username r.peer.ip exp s₁ b := by
  intro h
  have hrun : ((exec (TurnServer.next sampleHmac) (.new sampleConfig) sampleBound).bind fun s =>
      (s.step sampleHmac (sampleData (301 * SECOND))).2) =
        some ⟨sampleClient, sampleAddr 2, [1, 2, 3, 4, 5], true, 301 * SECOND⟩ ∧
      ((exec (TurnServer.next sampleHmac) (.new sampleConfig) sampleBound).bind fun s =>
        (s.allocations sampleClient).bind fun a => a.permissions (sampleAddr 2).ip) =
        some (2 + 300 * SECOND) := by
    decide +kernel
  obtain ⟨hrelay, hperm⟩ := hrun
  obtain ⟨s, hs, hrelay⟩ := Option.bind_eq_some_iff.mp hrelay
  rw [hs, Option.bind_some] at hperm
  obtain ⟨alloc, exp, halloc, -, hexp, hnow, -⟩ :=
    h sampleHmac sampleConfig sampleBound (sampleData (301 * SECOND)) s _ hs (by decide +kernel) hrelay
  rw [halloc, Option.bind_some, hexp] at hperm
  obtain rfl := Option.some.inj hperm
  simp only [SECOND] at hnow
  omega

end SmithsNet.Ice.Turn
