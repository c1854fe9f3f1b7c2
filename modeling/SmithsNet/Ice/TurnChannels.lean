import SmithsNet.Ice.TurnPermissions
import SmithsNet.Lib.Leases

/-!
# SmithsNet.Ice.TurnChannels

The channel bindings of a TURN allocation are `Leases` of channels and peers.
Whatever a client sends, its allocation's bindings take a step of `Leases` or
start empty (`evolves_step`), so in every run the two tables are inverse to each
other and a binding keeps both its sides for as long as it is live.

A binding is dropped in both tables by pruning, which every ChannelBind starts
with; a ChannelBind that is refused does no more than that.
-/

namespace SmithsNet.Ice.Turn

open Lib SmithsNet.Core TurnServer

/-- Channels and the peers they are bound to. -/
def Allocation.bindings (a : Allocation) : Leases UInt16 SocketAddr := ⟨a.channelsToPeer, a.peerToChannel⟩

theorem Allocation.channelPeer_eq (a : Allocation) (channel : UInt16) (now : Nat) :
    a.channelPeer channel now = a.bindings.partner channel now := rfl

theorem Allocation.peerChannel_eq (a : Allocation) (peer : SocketAddr) (now : Nat) :
    a.peerChannel peer now = a.bindings.holder peer now := rfl

theorem Allocation.bindings_prune (a : Allocation) (now : Nat) :
    (a.prune now).bindings = a.bindings.prune now := rfl

variable {a a' : Allocation} {buf : Bytes} {env : Env} {hmac : Hmac} {as : List Action}
    {client k : SocketAddr} {s s' : TurnServer}

theorem Allocation.channelPeer_eq_some {channel : UInt16} {peer : SocketAddr} {now : Nat} :
    a.channelPeer channel now = some peer ↔
      ∃ expiry, a.channelsToPeer channel = some (peer, expiry) ∧ now < expiry := by
  rw [channelPeer_eq]
  exact Leases.partner_eq_some

theorem Allocation.bindings_keep (now : Nat) (hchannels : a'.channelsToPeer = a.channelsToPeer)
    (hpeers : a'.peerToChannel = a.peerToChannel) : Leases.Step now a.bindings a'.bindings := by
  have hsame : a'.bindings = a.bindings := by rw [bindings, bindings, hchannels, hpeers]
  rw [hsame]
  exact .keep a.bindings

/-- When an action takes its effect. -/
def Action.time : Action → Nat
  | .datagram _ _ env => env.applyAt
  | .peer _ _ _ now _ => now
  | .sweep now => now
  | .shutdown => 0

/-- The bindings of the client's allocation have taken a step, or are those of an
allocation that has just started. -/
def Evolves (now : Nat) (s s' : TurnServer) (client : SocketAddr) : Prop :=
  ∀ a', s'.allocations client = some a' →
    (∃ a, s.allocations client = some a ∧ Leases.Step now a.bindings a'.bindings) ∨
      a'.bindings = .empty

section Handlers

variable {hmac : Hmac} {s s' : TurnServer} {msg : ParsedStun} {client k : SocketAddr} {env : Env} {now : Nat}

theorem evolves_of_same (h : s'.allocations = s.allocations) : Evolves now s s' k := by
  intro a' ha'
  rw [h] at ha'
  exact .inl ⟨a', ha', .keep _⟩

theorem evolves_setAllocation {a a' : Allocation} (ha : s.allocations client = some a)
    (h : Leases.Step now a.bindings a'.bindings) : Evolves now s (s.setAllocation client a') k := by
  intro b hb
  simp only [setAllocation, Table.insert_apply] at hb
  split at hb
  · next hk =>
    subst hk
    obtain rfl := Option.some.inj hb
    exact .inl ⟨a, ha, h⟩
  · exact .inl ⟨b, hb, .keep _⟩

theorem evolves_handleAllocate : Evolves now s (s.handleAllocate hmac msg client env).1 k := by
  unfold handleAllocate
  split
  · exact evolves_of_same rfl
  · split
    · next r hauth => exact evolves_of_same (allocations_of_refused hauth)
    · split
      · exact evolves_of_same rfl
      · split
        · exact evolves_of_same rfl
        · exact evolves_of_same rfl
        · intro a' ha'
          simp only [setAllocation, Table.insert_apply] at ha'
          split at ha'
          · obtain rfl := Option.some.inj ha'
            exact .inr rfl
          · exact .inl ⟨a', ha', .keep _⟩

theorem evolves_handleRefresh : Evolves now s (s.handleRefresh hmac msg client env).1 k := by
  unfold handleRefresh
  split
  · next r hauth => exact evolves_of_same (allocations_of_refused_on hauth)
  · dsimp only
    split
    · intro a' ha'
      simp only [Table.erase_apply] at ha'
      split at ha'
      · contradiction
      · exact .inl ⟨a', ha', .keep _⟩
    · split
      · exact evolves_of_same rfl
      · next a ha => exact evolves_setAllocation ha (Allocation.bindings_keep now rfl rfl)

theorem evolves_handleCreatePermission :
    Evolves now s (s.handleCreatePermission hmac msg client env).1 k := by
  unfold handleCreatePermission
  split
  · next r hauth => exact evolves_of_same (allocations_of_refused_on hauth)
  · split
    · exact evolves_of_same rfl
    · split
      · exact evolves_of_same rfl
      · next a ha => exact evolves_setAllocation ha (Allocation.bindings_keep now rfl rfl)

/-- The channel is bound where neither it nor the peer is bound elsewhere. -/
theorem evolves_handleChannelBind :
    Evolves env.applyAt s (s.handleChannelBind hmac msg client env).1 k := by
  unfold handleChannelBind
  split
  · next r hauth => exact evolves_of_same (allocations_of_refused_on hauth)
  · dsimp only
    split
    · exact evolves_of_same rfl
    · next channel peer hbinding =>
      split
      · exact evolves_of_same rfl
      · next a ha =>
        split
        · exact evolves_setAllocation ha (.prune a.bindings)
        · next hfree =>
          refine evolves_setAllocation ha (.bind a.bindings channel peer _ ⟨fun p hp => ?_, fun c hc => ?_⟩)
          · by_contra hne
            apply hfree
            rw [Allocation.channelPeer_eq, Allocation.bindings_prune, hp]
            simp [hne]
          · by_contra hne
            apply hfree
            rw [Allocation.peerChannel_eq, Allocation.bindings_prune, hc]
            simp [hne]

/-- **What an action does to the bindings of a client's allocation.** -/
theorem evolves_step (a : Action) : Evolves a.time s (s.step hmac a).1 k := by
  cases a with
  | peer client peer data now txid => exact evolves_of_same rfl
  | shutdown => exact fun a' ha' => by contradiction
  | sweep now =>
    intro a' ha'
    obtain ⟨a, ha, rfl⟩ := Option.map_eq_some_iff.mp ha'
    exact .inl ⟨a, (Option.filter_eq_some_iff.mp ha).1, .prune a.bindings⟩
  | datagram bytes client env =>
    simp only [step, dispatch]
    split
    · exact evolves_of_same rfl
    · split
      · exact evolves_of_same rfl
      · split
        · split
          · exact evolves_handleAllocate
          · split
            · exact evolves_handleRefresh
            · split
              · exact evolves_handleCreatePermission
              · split
                · exact evolves_handleChannelBind
                · exact evolves_of_same rfl
        · split
          · exact evolves_of_same rfl
          · exact evolves_of_same rfl

end Handlers

/-! ## runs -/

/-- The bindings of every allocation are inverse to each other. -/
def TurnServer.Paired (s : TurnServer) : Prop :=
  ∀ client a, s.allocations client = some a → a.bindings.Paired

theorem paired_step {a : Action} (h : s.Paired)
    (hstep : TurnServer.next hmac s a = some s') : s'.Paired := by
  obtain rfl := Option.some.inj hstep
  intro client a' ha'
  obtain ⟨b, hb, hchange⟩ | hfresh := evolves_step a a' ha'
  · exact hchange.paired (h client b hb)
  · rw [hfresh]
    exact Leases.paired_empty

theorem paired_exec (h : s.Paired)
    (hexec : exec (TurnServer.next hmac) s as = some s') : s'.Paired :=
  exec_invariant (fun _ _ _ h hstep => paired_step h hstep) hexec h

theorem paired_new (config : TurnServerConfig) : (new config).Paired :=
  fun _ _ h => by contradiction

/-- Whenever an action comes, something is live in the client's allocation. -/
def StaysLive (hmac : Hmac) (client : SocketAddr) (live : Allocation → Nat → Prop) (s : TurnServer)
    (as : List Action) : Prop :=
  Meets (TurnServer.next hmac) (fun s a => ∃ alloc ∈ s.allocations client, live alloc a.time) s as

/-- One side of a binding whose other side is live whenever an action comes is
the same at the end, if it is there at all. -/
theorem side_unique {β : Type} (side : Leases UInt16 SocketAddr → Option β)
    {live : Allocation → Nat → Prop} (hempty : side .empty = none)
    (hside : ∀ (a : Allocation) now, live a now → side a.bindings ≠ none)
    (hkeep : ∀ now (a a' : Allocation), a.bindings.Paired → Leases.Step now a.bindings a'.bindings → live a now →
      side a'.bindings = side a.bindings)
    {x y : β}
    (hpaired : s.Paired) (hexec : exec (TurnServer.next hmac) s as = some s')
    (hlive : StaysLive hmac client live s as) (ha : s.allocations client = some a)
    (hx : side a.bindings = some x) (ha' : s'.allocations client = some a')
    (hy : side a'.bindings = some y) : y = x := by
  induction as generalizing s a with
  | nil =>
    obtain rfl := Option.some.inj hexec
    obtain rfl := Option.mem_unique ha ha'
    exact Option.mem_unique hy hx
  | cons act as ih =>
    obtain ⟨s₁, hs₁, hexec⟩ := Option.bind_eq_some_iff.mp hexec
    obtain ⟨⟨b, hb, hnow⟩, hrest⟩ := hlive
    obtain rfl := Option.mem_unique ha hb
    simp only [hs₁] at hrest
    -- behind the action there still is an allocation with that side
    have hnext : ∃ a₁, s₁.allocations client = some a₁ ∧ side a₁.bindings ≠ none := by
      cases as with
      | nil =>
        obtain rfl := Option.some.inj hexec
        exact ⟨a', ha', by simp [hy]⟩
      | cons act' as =>
        obtain ⟨⟨c, hc, hnow⟩, -⟩ := hrest
        exact ⟨c, hc, hside c _ hnow⟩
    obtain ⟨a₁, ha₁, hne⟩ := hnext
    refine ih (paired_step hpaired hs₁) hexec hrest ha₁ ?_
    obtain rfl := Option.some.inj hs₁
    obtain ⟨c, hc, hchange⟩ | hfresh := evolves_step act a₁ ha₁
    · obtain rfl := Option.mem_unique ha hc
      rw [hkeep act.time a a₁ (hpaired client a ha) hchange hnow, hx]
    · rw [hfresh, hempty] at hne
      contradiction

/-! ## a refused ChannelBind -/

/-- The class of a reply. -/
def replyClass (reply : Bytes) : Nat := classBits (beNat (slice reply 0 2))

theorem slice_setLength (n : Nat) (h : 2 ≤ buf.length) :
    slice (setLength buf n) 0 2 = slice buf 0 2 := by
  have hfour : (buf.take 2).length = 2 := by simp [List.length_take, Nat.min_eq_left h]
  simp only [slice, List.drop_zero, setLength, List.append_assoc]
  rw [List.take_append_of_le_length (by omega), List.take_of_length_le (by omega)]

theorem slice_appendAttr (kind : Nat) (value : Bytes) (h : 2 ≤ buf.length) :
    slice (appendAttr buf kind value) 0 2 = slice buf 0 2 := by
  simp only [slice, List.drop_zero, appendAttr, List.append_assoc]
  rw [List.take_append_of_le_length h]

theorem slice_sealReply (hmac : Hmac) (key : Bytes) (h : 4 ≤ buf.length) :
    slice (sealReply hmac buf key) 0 2 = slice buf 0 2 := by
  have hset (n : Nat) : 2 ≤ (setLength buf n).length := by
    simp [setLength]
    omega
  have hattr (n : Nat) (value : Bytes) :
      2 ≤ (appendAttr (setLength buf n) ATTR_MESSAGE_INTEGRITY value).length := by
    have hset := hset n
    simp only [appendAttr, List.length_append]
    omega
  rw [sealReply, finalizeLength, appendMessageIntegrity]
  rw [slice_setLength _ (hattr _ _), slice_appendAttr _ _ (hset _), slice_setLength _ (by omega)]

theorem replyClass_sealReply (hmac : Hmac) (method : Nat) (txid : TransactionId) (key : Bytes) :
    replyClass (sealReply hmac (buildSuccessHeader method txid) key) =
      replyClass (buildSuccessHeader method txid) := by
  have hlen : 4 ≤ (buildSuccessHeader method txid).length := by
    rw [buildSuccessHeader, length_header, HEADER_LEN]
    omega
  rw [replyClass, slice_sealReply hmac key hlen, replyClass]

/-- What is live from some time on is the same. -/
structure Allocation.SameLive (since : Nat) (a a' : Allocation) : Prop where
  channels : ∀ channel t, since ≤ t → a'.channelPeer channel t = a.channelPeer channel t
  peers : ∀ peer t, since ≤ t → a'.peerChannel peer t = a.peerChannel peer t
  permissions : ∀ ip t, since ≤ t → a'.permissionLive ip t = a.permissionLive ip t

theorem Allocation.SameLive.refl (since : Nat) (a : Allocation) : a.SameLive since a :=
  ⟨fun _ _ _ => rfl, fun _ _ _ => rfl, fun _ _ _ => rfl⟩

theorem Allocation.sameLive_prune (h : a.bindings.Paired) (now : Nat) :
    a.SameLive now (a.prune now) where
  channels := fun channel t ht => by
    rw [channelPeer_eq, channelPeer_eq, bindings_prune]
    exact Leases.partner_prune ht
  peers := fun peer t ht => by
    rw [peerChannel_eq, peerChannel_eq, bindings_prune]
    exact h.holder_prune ht
  permissions := fun ip t ht => by
    simp only [permissionLive, prune, Table.retain]
    cases a.permissions ip with
    | none => rfl
    | some exp =>
      by_cases hexp : now < exp
      · simp [hexp]
      · have hout : ¬ t < exp := by omega
        simp [hexp, hout]

/-- A ChannelBind that is answered with an error changes nothing that is live. -/
theorem sameLive_of_refused {msg : ParsedStun}
    (hpaired : s.Paired) (h : replyClass (s.handleChannelBind hmac msg client env).2 = CLASS_ERROR)
    (ha : s.allocations k = some a) :
    ∃ a', (s.handleChannelBind hmac msg client env).1.allocations k = some a' ∧ a.SameLive env.applyAt a' := by
  have hsame {s' : TurnServer} (hallocations : s'.allocations = s.allocations) :
      ∃ a', s'.allocations k = some a' ∧ a.SameLive env.applyAt a' :=
    ⟨a, by rw [hallocations, ha], .refl _ a⟩
  unfold handleChannelBind at h ⊢
  split
  · next r hauth => exact hsame (allocations_of_refused_on hauth)
  · next auth hauth =>
    rw [hauth] at h
    dsimp only at h ⊢
    split
    · exact hsame rfl
    · next channel peer hbinding =>
      rw [hbinding] at h
      dsimp only at h
      split
      · exact hsame rfl
      · next b hb =>
        rw [hb] at h
        dsimp only at h
        split
        · -- in conflict with another binding: only the pruning
          simp only [setAllocation, Table.insert_apply]
          split
          · next hk =>
            subst hk
            obtain rfl := Option.mem_unique ha hb
            exact ⟨_, rfl, Allocation.sameLive_prune (hpaired k a ha) env.applyAt⟩
          · exact ⟨a, ha, .refl _ a⟩
        · next hfree =>
          rw [if_neg hfree, replyClass_sealReply] at h
          exact absurd h (by simp [replyClass, buildSuccessHeader, header, slice]; decide)

/-! ## the result -/

/-- The datagram is a ChannelBind request of the client that is answered with an error. -/
def Refuses (hmac : Hmac) (s : TurnServer) (bytes : Bytes) (client : SocketAddr) (env : Env) : Prop :=
  ∃ msg reply, isChannelData bytes = false ∧ ParsedStun.parse bytes = some msg ∧
    msg.kind = CLASS_REQUEST ∧ msg.method = METHOD_CHANNEL_BIND ∧
    (s.dispatch hmac bytes client env).2.1 = some reply ∧ replyClass reply = CLASS_ERROR

theorem sameLive_of_refuses {bytes : Bytes}
    (hpaired : s.Paired) (h : Refuses hmac s bytes client env) (ha : s.allocations k = some a) :
    ∃ a', (s.dispatch hmac bytes client env).1.allocations k = some a' ∧ a.SameLive env.applyAt a' := by
  obtain ⟨msg, reply, hdata, hparse, hkind, hmethod, hreply, hclass⟩ := h
  have hdispatch : s.dispatch hmac bytes client env =
      ((s.handleChannelBind hmac msg client env).1, some (s.handleChannelBind hmac msg client env).2, none) := by
    simp only [dispatch, hdata, hparse, hkind, hmethod]
    rfl
  rw [hdispatch] at hreply ⊢
  obtain rfl := Option.some.inj hreply
  exact sameLive_of_refused hpaired hclass ha

/-- **Channel bindings.**  In every reachable state of the server, for every
allocation: a channel's live peer and a peer's live channel are inverse to each
other at every time; over any further run, a channel that is live whenever the
server takes an action keeps its peer, and a peer its channel; and a refused
ChannelBind leaves every live binding and permission as it was. -/
theorem channel_bindings_bijective (hmac : Hmac) (config : TurnServerConfig) (before : List Action)
    (s : TurnServer) (hexec : exec (TurnServer.next hmac) (.new config) before = some s) :
    (∀ client a, s.allocations client = some a → ∀ channel peer now,
      a.channelPeer channel now = some peer ↔ a.peerChannel peer now = some channel) ∧
    (∀ as s', exec (TurnServer.next hmac) s as = some s' → ∀ client a a', s.allocations client = some a →
      s'.allocations client = some a' → ∀ t t',
        (∀ channel peer peer', a.channelPeer channel t = some peer →
          StaysLive hmac client (fun b now => b.channelPeer channel now ≠ none) s as →
          a'.channelPeer channel t' = some peer' → peer' = peer) ∧
        ∀ peer channel channel', a.peerChannel peer t = some channel →
          StaysLive hmac client (fun b now => b.peerChannel peer now ≠ none) s as →
          a'.peerChannel peer t' = some channel' → channel' = channel) ∧
    ∀ bytes client env, Refuses hmac s bytes client env → ∀ k a, s.allocations k = some a →
      ∃ a', (s.dispatch hmac bytes client env).1.allocations k = some a' ∧ a.SameLive env.applyAt a' := by
  have hpaired : s.Paired := paired_exec (paired_new config) hexec
  refine ⟨fun client a ha channel peer now => (hpaired client a ha).partner_eq_some_iff, ?_,
    fun bytes client env h k a ha => sameLive_of_refuses hpaired h ha⟩
  intro as s' hexec' client a a' ha ha' t t'
  have hpaired' : s'.Paired := paired_exec hpaired hexec'
  constructor
  · intro channel peer peer' hpeer hlive hpeer'
    obtain ⟨expiry, hforward, -⟩ := Allocation.channelPeer_eq_some.mp hpeer
    obtain ⟨expiry', hforward', -⟩ := Allocation.channelPeer_eq_some.mp hpeer'
    refine side_unique (fun l => (l.forward channel).map Prod.fst) rfl ?_ ?_ hpaired hexec' hlive ha
      (by simp [Allocation.bindings, hforward]) ha' (by simp [Allocation.bindings, hforward'])
    · intro b now hnow
      obtain ⟨p, hp⟩ := Option.ne_none_iff_exists'.mp hnow
      obtain ⟨exp, hb, -⟩ := Allocation.channelPeer_eq_some.mp hp
      simp [Allocation.bindings, hb]
    · intro now b b' _ hstep hnow
      obtain ⟨p, hp⟩ := Option.ne_none_iff_exists'.mp hnow
      obtain ⟨exp, hb, -⟩ := Allocation.channelPeer_eq_some.mp hp
      obtain ⟨exp', hb'⟩ := hstep.partner hp
      rw [hb', Option.map_some]
      simp [Allocation.bindings, hb]
  · intro peer channel channel' hchannel hlive hchannel'
    have hbackward {b : Allocation} {now : Nat} {c : UInt16} (h : b.peerChannel peer now = some c) :
        b.bindings.backward peer = some c := by
      obtain ⟨c', hc', hlive⟩ := Option.bind_eq_some_iff.mp h
      obtain ⟨_, -, rfl⟩ := Option.map_eq_some_iff.mp hlive
      exact hc'
    refine side_unique (fun l => l.backward peer) rfl ?_ ?_ hpaired hexec' hlive ha
      (hbackward hchannel) ha' (hbackward hchannel')
    · intro b now hnow
      obtain ⟨c, hc⟩ := Option.ne_none_iff_exists'.mp hnow
      simp [hbackward hc]
    · intro now b b' hb hstep hnow
      obtain ⟨c, hc⟩ := Option.ne_none_iff_exists'.mp hnow
      rw [hstep.holder hb hc, hbackward hc]

/-- A ChannelBind of another channel to the peer that is bound already. -/
def sampleConflict : Bytes :=
  sampleRequest METHOD_CHANNEL_BIND [(ATTR_CHANNEL_NUMBER, [0x40, 1, 0, 0]), samplePeer]

/-- The client's channel is bound to its peer, and stays so when another channel
for the peer is refused. -/
theorem channel_bindings_bijective_conflict :
    ∃ s a a', exec (TurnServer.next sampleHmac) (.new sampleConfig) sampleBound = some s ∧
      s.allocations sampleClient = some a ∧ a.peerChannel (sampleAddr 2) SECOND = some 0x4000 ∧
      Refuses sampleHmac s sampleConflict sampleClient (sampleEnv 3) ∧
      (s.dispatch sampleHmac sampleConflict sampleClient (sampleEnv 3)).1.allocations sampleClient = some a' ∧
      a.SameLive 3 a' := by
  have hbound : ((exec (TurnServer.next sampleHmac) (.new sampleConfig) sampleBound).bind fun s =>
      (s.allocations sampleClient).bind fun a => a.channelPeer 0x4000 SECOND) = some (sampleAddr 2) := by
    decide +kernel
  have hrefused : ((exec (TurnServer.next sampleHmac) (.new sampleConfig) sampleBound).bind fun s =>
      (ParsedStun.parse sampleConflict).bind fun msg =>
        if msg.kind = 0 ∧ msg.method = 9 then
          (s.dispatch sampleHmac sampleConflict sampleClient (sampleEnv 3)).2.1.map replyClass
        else none) = some 3 := by
    decide +kernel
  obtain ⟨s, hs, ha⟩ := Option.bind_eq_some_iff.mp hbound
  obtain ⟨a, ha, hpeer⟩ := Option.bind_eq_some_iff.mp ha
  rw [hs, Option.bind_some] at hrefused
  obtain ⟨msg, hparse, hrefused⟩ := Option.bind_eq_some_iff.mp hrefused
  have hdata : isChannelData sampleConflict = false := by decide +kernel
  obtain ⟨hpaired, -, hsame⟩ := channel_bindings_bijective sampleHmac sampleConfig sampleBound s hs
  split at hrefused
  · next hkind =>
    obtain ⟨reply, hreply, hclass⟩ := Option.map_eq_some_iff.mp hrefused
    have hrefuses : Refuses sampleHmac s sampleConflict sampleClient (sampleEnv 3) :=
      ⟨msg, reply, hdata, hparse, hkind.1, hkind.2, hreply, hclass⟩
    obtain ⟨a', ha', hlive⟩ := hsame _ _ _ hrefuses sampleClient a ha
    exact ⟨s, a, a', hs, ha, (hpaired sampleClient a ha _ _ _).mp hpeer, hrefuses, ha', hlive⟩
  · cases hrefused

end SmithsNet.Ice.Turn
