import SmithsNet.Webrtc.Handler

/-!
# SmithsNet.Webrtc.Isolation

What a frame of one connection does to the sessions of others.

The maps of the handler are keyed by session ids that are small numbers, and of the
frames that name one only offers are checked for whose it is; candidates and byes go
to the handler as they are.  Legs of different connections meet under a tag.

`isolated`: in every state that can be reached, a frame on one connection (a
candidate or bye for the connection's own session) leaves the agents, candidates and
keepalives of other connections' sessions alone, their parked legs but those under
the tag it works under, and their bridges but those it makes or shares.
-/

namespace SmithsNet.Webrtc

open Lib

/-! ## statements -/

namespace State

variable (s : State)

/-- The connection whose frame is handled. -/
def connOf : Action → Option Nat
  | .init c _ | .offer c _ _ _ | .candidate c _ _ _ | .bye c _ | .find c _ | .remove c | .other c | .close c => some c
  | .negotiated i _ | .checked i _ | .secured i _ | .look i | .park i | .bridged i _ => s.ops[i]?.bind Op.conn
  | .connect | .evict _ | .stopKeepalive _ | .invite _ | .endDialog _ => none

/-- The session that a candidate or a bye names. -/
def named : Action → Option SessionId
  | .candidate _ session _ _ | .bye _ session => some session
  | .find c _ | .remove c =>
    match s.conns[c]?.bind Conn.task with
    | some (.finding session) | some (.removing session _) => some session
    | _ => none
  | _ => none

/-- The tag under which parked legs are looked at. -/
def tagOf : Action → Option String
  | .look i | .park i => s.ops[i]?.bind Op.tag
  | .remove c =>
    match s.conns[c]?.bind Conn.task with
    | some (.removing _ tag) => some tag
    | _ => none
  | _ => none

/-- An offer has taken a leg of the session, and their bridge is installed. -/
def Pairs (session : SessionId) : Action → Prop
  | .bridged i ok => ok = true ∧ ∃ j partner, (s.ops[i]?.map Op.phase) = some (.bridging j) ∧ s.ops[j]? = some partner ∧
      partner.session = some session
  | _ => False

/-- What is left alone of a session when a frame of connection `c` is handled. -/
structure Untouched (s' : State) (a : Action) (c : Nat) (session : SessionId) : Prop where
  agent : s'.iceAgents session = s.iceAgents session
  candidates : ∀ i, s.iceAgents session = some i → s'.ops[i]?.map Op.remotes = s.ops[i]?.map Op.remotes
  token : s'.iceKeepalives session = s.iceKeepalives session
  keepalive : ∀ i, s.iceKeepalives session = some i → s'.ops[i]?.map Op.keepalive = s.ops[i]?.map Op.keepalive
  parked : ∀ tag i, s.pending tag = some i → s.ops[i]?.bind Op.session = some session →
    s'.pending tag = some i ∨ s.tagOf a = some tag
  active : s'.active session = s.active session ∨ s.Pairs session a
  bridge : ∀ b x, s.active session = some b → s.bridges[b]? = some x →
    s'.bridges[b]? = some x ∨ ∃ own, s.conns[c]?.bind Conn.session = some own ∧ s.active own = some b

/-- Offers that name another session are answered with an error. -/
def OffersChecked : Prop :=
  ∀ k ∈ s.conns, ∀ h ∈ k.log, h.kind = .offer → h.own = false → ∃ code, h.reply = some (.error code)

end State

/-! ## owners -/

/-- The offer is one of the session's. -/
def State.OfferOf (s : State) (session : SessionId) (i : Nat) : Prop :=
  ∃ op : Op, s.ops[i]? = some op ∧ op.session = some session ∧ op.conn.isSome

theorem State.OfferOf.setOp {s : State} {session : SessionId} {i : Nat} (h : s.OfferOf session i) (j : Nat) (f : Op → Op)
    (hconn : ∀ op, (f op).conn = op.conn)
    (hsession : ∀ op, s.ops[j]? = some op → op.conn.isSome → (f op).session = op.session) :
    (s.setOp j f).OfferOf session i := by
  obtain ⟨op, hop, hs, hsome⟩ := h
  unfold State.OfferOf
  simp only [State.setOp_frame, List.getElem?_modify, hop]
  split
  · next hij => exact ⟨f op, rfl, (hsession op (hij ▸ hop) hsome).trans hs, by rwa [hconn]⟩
  · exact ⟨op, rfl, hs, hsome⟩

/-- Sessions, offers and agents belong to the connection that opened them. -/
structure Owned (s : State) : Prop where
  ops : ∀ (i : Nat) (op : Op) (c : Nat), s.ops[i]? = some op → op.conn = some c →
    ∃ (session : SessionId) (info : SessionInfo), op.session = some session ∧ s.sessions[session]? = some info ∧ info.conn = c
  conns : ∀ (c : Nat) (k : Conn) (session : SessionId), s.conns[c]? = some k → k.session = some session →
    ∃ info : SessionInfo, s.sessions[session]? = some info ∧ info.conn = c
  agents : ∀ session i, s.iceAgents session = some i → s.OfferOf session i
  keepalives : ∀ session i, s.iceKeepalives session = some i → s.OfferOf session i
  replies : s.OffersChecked

namespace Owned

variable {s : State}

section

variable (h : Owned s)
include h

theorem setOp (i : Nat) (f : Op → Op) (hconn : ∀ op, (f op).conn = op.conn)
    (hsession : ∀ op, s.ops[i]? = some op → op.conn.isSome → (f op).session = op.session) : Owned (s.setOp i f) := by
  refine ⟨fun j op c hop hc => ?_, h.conns, fun session j hj => (h.agents session j hj).setOp i f hconn hsession,
    fun session j hj => (h.keepalives session j hj).setOp i f hconn hsession, h.replies⟩
  · obtain ⟨old, hold, rfl⟩ := slot_modify hop
    have hc' : old.conn = some c := by
      split at hc
      · rwa [hconn] at hc
      · exact hc
    obtain ⟨session, info, hs, hrest⟩ := h.ops j old c hold hc'
    refine ⟨session, info, ?_, hrest⟩
    split
    · next hij => rw [hsession old (hij ▸ hold) (by rw [hc']; rfl), hs]
    · exact hs

theorem setConn (c : Nat) (f : Conn → Conn)
    (hsession : ∀ (k : Conn) (session : SessionId), s.conns[c]? = some k → (f k).session = some session →
      ∃ info : SessionInfo, s.sessions[session]? = some info ∧ info.conn = c)
    (hlog : ∀ k, ∀ x ∈ (f k).log, x ∈ k.log ∨ (x.kind = .offer → x.own = false → ∃ code, x.reply = some (.error code))) :
    Owned (s.setConn c f) := by
  refine ⟨h.ops, fun d k session hk hs => ?_, h.agents, h.keepalives, fun k hk x hx hkind hown => ?_⟩
  · obtain ⟨old, hold, rfl⟩ := slot_modify hk
    split at hs
    · next hcd =>
      subst hcd
      exact hsession old session hold hs
    · exact h.conns d old session hold hs
  · obtain ⟨d, hd⟩ := List.getElem?_of_mem hk
    obtain ⟨old, hold, rfl⟩ := slot_modify hd
    have hmem := List.mem_of_getElem? hold
    split at hx
    · obtain hx | hfine := hlog old x hx
      · exact h.replies old hmem x hx hkind hown
      · exact hfine hkind hown
    · exact h.replies old hmem x hx hkind hown

theorem setTask (c : Nat) (f : Conn → Conn) (hsession : ∀ k, (f k).session = k.session)
    (hlog : ∀ k, ∀ x ∈ (f k).log, x ∈ k.log ∨ (x.kind = .offer → x.own = false → ∃ code, x.reply = some (.error code))) :
    Owned (s.setConn c f) :=
  h.setConn c f (fun k session hk hs => h.conns c k session hk (hsession k ▸ hs)) hlog

theorem tables (bridges : List Bridge) (pending : Table String Nat) (active : Table SessionId Nat) (suffix : Nat) :
    Owned { s with bridges := bridges, pending := pending, active := active, suffix := suffix } :=
  ⟨h.ops, h.conns, h.agents, h.keepalives, h.replies⟩

theorem reply (i : Nat) (r : Reply) : Owned (s.reply i r) := by
  unfold State.reply
  split
  · refine h.setTask _ _ (fun _ => rfl) fun k x hx => ?_
    obtain hx | hx := List.mem_append.mp hx
    · exact .inl hx
    · obtain rfl := List.mem_singleton.mp hx
      exact .inr nofun
  · exact h

theorem reject (i : Nat) : Owned (s.reject i) :=
  (h.setOp i (fun op => { op with phase := .failed, endpoint := false }) (fun _ => rfl) fun _ _ _ => rfl).reply i _

end

variable {i : Nat} {session : SessionId} {iceKeepalives iceAgents : Table SessionId Nat}

theorem forget (h : Owned s)
    (hagents : ∀ session i, iceAgents session = some i → s.iceAgents session = some i)
    (hkeepalives : ∀ session i, iceKeepalives session = some i → s.iceKeepalives session = some i) :
    Owned { s with iceAgents := iceAgents, iceKeepalives := iceKeepalives } :=
  ⟨h.ops, h.conns, fun session i hi => h.agents session i (hagents session i hi),
    fun session i hi => h.keepalives session i (hkeepalives session i hi), h.replies⟩

theorem erase_le (t : Table SessionId Nat) (session : SessionId) :
    ∀ session' i, t.erase session session' = some i → t session' = some i := by
  intro session' i hi
  rw [Table.erase_apply] at hi
  split at hi
  · contradiction
  · exact hi

section

variable (h : Owned s) (session : SessionId)
include h

theorem removeAgent (fate : Nat → AgentFate) : Owned (s.removeAgent session fate) := by
  unfold State.removeAgent
  split
  · next i _ =>
    have hset := h.setOp i (fun op => { op with agent := fate i }) (fun _ => rfl) fun _ _ _ => rfl
    exact hset.forget (erase_le _ session) fun _ _ hi => hi
  · exact h

theorem cancelKeepalive : Owned (s.cancelKeepalive session) := by
  unfold State.cancelKeepalive
  split
  · next i _ =>
    have hset := h.setOp i (fun op => { op with keepalive := false }) (fun _ => rfl) fun _ _ _ => rfl
    exact hset.forget (fun _ _ hi => hi) (erase_le _ session)
  · exact h

theorem releaseBridge : Owned (s.releaseBridge session) := by
  unfold State.releaseBridge
  split
  · exact h.tables _ _ _ _
  · exact h

end

theorem failChecks (h : Owned s) (i : Nat) (session : SessionId) : Owned (s.failChecks i session) :=
  (h.removeAgent session _).reject i

theorem insert_le {t : Table SessionId Nat} {session' : SessionId} {j : Nat}
    (h : t.insert session i session' = some j) : t session' = some j ∨ session' = session ∧ j = i := by
  rw [Table.insert_apply] at h
  split at h
  · next hs => exact .inr ⟨hs, (Option.some.inj h).symm⟩
  · exact .inl h

theorem register (h : Owned s) (hoffer : s.OfferOf session i)
    (hagents : ∀ session' j, iceAgents session' = some j → s.iceAgents session' = some j ∨ session' = session ∧ j = i)
    (hkeepalives : ∀ session' j, iceKeepalives session' = some j →
      s.iceKeepalives session' = some j ∨ session' = session ∧ j = i) :
    Owned { s with iceAgents := iceAgents, iceKeepalives := iceKeepalives } := by
  refine ⟨h.ops, h.conns, fun session' j hj => ?_, fun session' j hj => ?_, h.replies⟩
  · obtain hj | ⟨rfl, rfl⟩ := hagents session' j hj
    · exact h.agents session' j hj
    · exact hoffer
  · obtain hj | ⟨rfl, rfl⟩ := hkeepalives session' j hj
    · exact h.keepalives session' j hj
    · exact hoffer

theorem registerAgent (h : Owned s) (hoffer : s.OfferOf session i) (remotes : List String) :
    Owned (s.registerAgent i session remotes) ∧ (s.registerAgent i session remotes).OfferOf session i := by
  have hregistered : ∀ {s' : State}, Owned s' → s'.OfferOf session i → s'.iceAgents = s.iceAgents →
      Owned { s'.setOp i fun op => { op with agent := .registered, remotes := remotes } with
        iceAgents := s.iceAgents.insert session i } ∧
      State.OfferOf { s'.setOp i fun op => { op with agent := .registered, remotes := remotes } with
        iceAgents := s.iceAgents.insert session i } session i := by
    intro s' h' hoffer' hsame
    have hset := h'.setOp i (fun op => { op with agent := .registered, remotes := remotes }) (fun _ => rfl) fun _ _ _ => rfl
    have hoffer'' := hoffer'.setOp i (fun op =>
      { op with agent := .registered, remotes := remotes }) (fun _ => rfl) fun _ _ _ => rfl
    exact ⟨hset.register hoffer'' (fun _ _ hj => hsame ▸ insert_le hj) fun _ _ hj => .inl hj, hoffer''⟩
  unfold State.registerAgent
  split
  · next j _ =>
    exact hregistered (h.setOp j (fun op => { op with agent := .displaced i }) (fun _ => rfl) fun _ _ _ => rfl)
      (hoffer.setOp j (fun op => { op with agent := .displaced i }) (fun _ => rfl) fun _ _ _ => rfl) rfl
  · exact hregistered h hoffer rfl

theorem openSession (h : Owned s) (info : SessionInfo) : Owned { s with sessions := s.sessions ++ [info] } := by
  have hkept : ∀ {session : SessionId} {x : SessionInfo}, s.sessions[session]? = some x →
      (s.sessions ++ [info])[session]? = some x := by
    intro session x hx
    rw [List.getElem?_append_left (List.getElem?_eq_some_iff.mp hx).1, hx]
  refine ⟨fun i op c hop hc => ?_, fun c k session hk hs => ?_, h.agents, h.keepalives, h.replies⟩
  · obtain ⟨session, x, hs, hx, hconn⟩ := h.ops i op c hop hc
    exact ⟨session, x, hs, hkept hx, hconn⟩
  · obtain ⟨x, hx, hconn⟩ := h.conns c k session hk hs
    exact ⟨x, hkept hx, hconn⟩

theorem addOp (h : Owned s) (op : Op) (hop : ∀ c, op.conn = some c →
    ∃ (session : SessionId) (info : SessionInfo),
      op.session = some session ∧ s.sessions[session]? = some info ∧ info.conn = c) :
    Owned { s with ops := s.ops ++ [op] } := by
  have hkept : ∀ {i : Nat} {x : Op}, s.ops[i]? = some x → (s.ops ++ [op])[i]? = some x := by
    intro i x hx
    rw [List.getElem?_append_left (List.getElem?_eq_some_iff.mp hx).1, hx]
  refine ⟨fun i x c hx hc => ?_, h.conns, fun session i hi => ?_, fun session i hi => ?_, h.replies⟩
  · obtain hx | rfl := slot_append hx
    · exact h.ops i x c hx hc
    · exact hop c hc
  · obtain ⟨x, hx, hrest⟩ := h.agents session i hi
    exact ⟨x, hkept hx, hrest⟩
  · obtain ⟨x, hx, hrest⟩ := h.keepalives session i hi
    exact ⟨x, hkept hx, hrest⟩

section Steps

variable {s' : State} {c i : Nat}

theorem log_append {log : List Handled} {x : Handled}
    (hx : x.kind = .offer → x.own = false → ∃ code, x.reply = some (.error code)) :
    ∀ y ∈ log ++ [x], y ∈ log ∨ (y.kind = .offer → y.own = false → ∃ code, y.reply = some (.error code)) := by
  intro y hy
  obtain hy | hy := List.mem_append.mp hy
  · exact .inl hy
  · exact .inr (List.mem_singleton.mp hy ▸ hx)

theorem offerOf {op : Op} {session : SessionId} (hop : s.ops[i]? = some op) (hsession : op.session = some session)
    (hconn : op.conn = some c) : s.OfferOf session i :=
  ⟨op, hop, hsession, by rw [hconn]; rfl⟩

section

variable (h : Owned s)
include h

theorem byeDone (session : SessionId) : Owned (s.byeDone c session) :=
  h.setTask c _ (fun _ => rfl) fun _ => log_append nofun

theorem overwrite (i : Nat) (tag : String) : Owned (s.overwrite i tag) := by
  unfold State.overwrite
  split
  · next j _ =>
    have hset := h.setOp j (fun op => { op with phase := .gone (.overwritten i) }) (fun _ => rfl) fun _ _ _ => rfl
    exact hset.tables _ _ _ _
  · exact h.tables _ _ _ _

theorem enter (session : Option SessionId) (b : Nat) : Owned (s.enter session b) := by
  unfold State.enter
  split
  · exact h.tables _ _ _ _
  · exact h

theorem setPhases (i j : Nat) (p q : Phase) :
    Owned ((s.setOp j fun op => { op with phase := p }).setOp i fun op => { op with phase := q }) :=
  (h.setOp j (fun op => { op with phase := p }) (fun _ => rfl) fun _ _ _ => rfl).setOp i _ (fun _ => rfl) fun _ _ _ => rfl

theorem step {a : Action} (hstep : s.step a = some s') : Owned s' := by
  cases State.moves_of_step hstep with
  | connect =>
    refine ⟨h.ops, fun c k session hk hs => ?_, h.agents, h.keepalives, fun k hk x hx => ?_⟩
    · obtain hk | rfl := slot_append hk
      · exact h.conns c k session hk hs
      · contradiction
    · obtain hk | hk := List.mem_append.mp hk
      · exact h.replies k hk x hx
      · obtain rfl := List.mem_singleton.mp hk
        contradiction
  | @init c tag =>
    refine (h.openSession ⟨c, tag⟩).setConn c _ (fun k session hk hs => ?_) fun _ _ hx => .inl hx
    cases hs
    exact ⟨⟨c, tag⟩, by simp, rfl⟩
  | @offer c session k hidle hown =>
    obtain ⟨info, hinfo, hconn⟩ := h.conns c k session (State.of_idle hidle).1 hown
    refine (h.addOp _ fun c' hc' => ?_).setTask c _ (fun _ => rfl) fun _ _ hx => .inl hx
    cases hc'
    exact ⟨session, info, rfl, hinfo, hconn⟩
  | turnDown => exact h.setTask _ _ (fun _ => rfl) fun _ => log_append fun _ _ => ⟨_, rfl⟩
  | note => exact h.setTask _ _ (fun _ => rfl) fun _ => log_append nofun
  | @candidate c session raw =>
    have hlogged := h.setTask c
      (fun k => { k with hungUp := false, log := k.log ++ [⟨.candidate, decide (k.session = some session), none⟩] })
      (fun _ => rfl) fun _ => log_append nofun
    exact hlogged.setOp _ _ (fun _ => rfl) fun _ _ _ => rfl
  | @bye c session =>
    have hreleased := ((h.cancelKeepalive session).removeAgent session fun _ => .dropped).releaseBridge session
    exact hreleased.setTask c _ (fun _ => rfl) fun _ _ hx => .inl hx
  | found | other | close => exact h.setTask _ _ (fun _ => rfl) fun _ _ hx => .inl hx
  | miss | removeNothing => exact h.byeDone _
  | @remove _ session tag i =>
    have hset := (h.tables s.bridges (s.pending.erase tag) s.active s.suffix).setOp i
      (fun op => { op with evictor := false, endpoint := false, phase := .gone (.bye session) })
        (fun _ => rfl) fun _ _ _ => rfl
    exact hset.byeDone session
  | rejected | unsecured => exact h.reject _
  | withoutIce | tagged | wait | spare | stopKeepalive | endDialog => exact h.setOp _ _ (fun _ => rfl) fun _ _ _ => rfl
  | brokenIce | unchecked => exact h.failChecks _ _
  | withIce hop hconn hsession =>
    exact (h.registerAgent (offerOf hop hsession hconn) _).1.setOp _ _ (fun _ => rfl) fun _ _ _ => rfl
  | @checked i _ session _ hop hconn hsession =>
    have hset := h.setOp i (fun op => { op with keepalive := true, phase := .securing }) (fun _ => rfl) fun _ _ _ => rfl
    have hoffer := (offerOf hop hsession hconn).setOp i (fun op => { op with keepalive := true, phase := .securing })
      (fun _ => rfl) fun _ _ _ => rfl
    exact hset.register hoffer (fun _ _ hj => .inl hj) fun _ _ hj => insert_le hj
  | @single i => exact (h.setOp i (fun op => { op with phase := .single }) (fun _ => rfl) fun _ _ _ => rfl).reply i _
  | @meet i j tag =>
    have htaken := (h.tables s.bridges (s.pending.erase tag) s.active s.suffix).setOp j
      (fun op => { op with evictor := false, phase := .taken i }) (fun _ => rfl) fun _ _ _ => rfl
    exact htaken.setOp _ _ (fun _ => rfl) fun _ _ _ => rfl
  | @park i _ tag =>
    have hset := (h.overwrite i tag).setOp i (fun op => { op with phase := .parked, evictor := true }) (fun _ => rfl)
      fun _ _ _ => rfl
    exact hset.reply i _
  | @parkDialog i tag op hop _ _ hconn =>
    have hset := (h.overwrite i tag).setOp i
      (fun op => { op with phase := .parked, evictor := true, session := some s.syntheticSession }) (fun _ => rfl) ?_
    · exact hset.tables _ _ _ _
    · intro op' hop' hsome
      have hsame : (s.overwrite i tag).ops[i]?.map Op.conn = s.ops[i]?.map Op.conn := by
        unfold State.overwrite
        split
        · exact map_getElem?_modify fun _ => rfl
        · rfl
      rw [hop, hop', Option.map_some, Option.map_some, hconn, Option.some.injEq] at hsame
      rw [hsame] at hsome
      contradiction
  | @bridge i j =>
    have hinstalled : Owned (s.install i j) := h.tables _ _ _ _
    exact (((hinstalled.enter _ _).enter _ _).setPhases _ _ _ _).reply i _
  | @strand i => exact (h.setPhases _ _ _ _).reply i _
  | @evict i _ tag =>
    have hfired := h.setOp i (fun op => { op with evictor := false }) (fun _ => rfl) fun _ _ _ => rfl
    exact (hfired.tables _ (s.pending.erase tag) _ _).setOp _ _ (fun _ => rfl) fun _ _ _ => rfl
  | invite => exact h.addOp _ nofun
  | @hangUp i =>
    have hended := h.setOp i (fun op => { op with ended := true, endpoint := false }) (fun _ => rfl) fun _ _ _ => rfl
    exact hended.tables _ _ _ _

end

end Steps

end Owned

/-! ## agents -/

/-- The session's agent, its candidates and its keepalive task are as they were. -/
structure Same (session : SessionId) (s s' : State) : Prop where
  agent : s'.iceAgents session = s.iceAgents session
  candidates : ∀ i, s.iceAgents session = some i → s'.ops[i]?.map Op.remotes = s.ops[i]?.map Op.remotes
  token : s'.iceKeepalives session = s.iceKeepalives session
  keepalive : ∀ i, s.iceKeepalives session = some i → s'.ops[i]?.map Op.keepalive = s.ops[i]?.map Op.keepalive

namespace Same

variable {session own : SessionId} {s s' s'' : State} {i : Nat}

theorem refl (session : SessionId) (s : State) : Same session s s := ⟨rfl, fun _ _ => rfl, rfl, fun _ _ => rfl⟩

theorem trans (h : Same session s s') (h' : Same session s' s'') : Same session s s'' :=
  ⟨h'.agent.trans h.agent, fun i hi => (h'.candidates i (h.agent ▸ hi)).trans (h.candidates i hi),
    h'.token.trans h.token, fun i hi => (h'.keepalive i (h.token ▸ hi)).trans (h.keepalive i hi)⟩

theorem of_ops (hops : s'.ops = s.ops) (hagent : s'.iceAgents session = s.iceAgents session)
    (htoken : s'.iceKeepalives session = s.iceKeepalives session) : Same session s s' :=
  ⟨hagent, fun _ _ => by rw [hops], htoken, fun _ _ => by rw [hops]⟩

theorem setOp (i : Nat) (f : Op → Op) (hremotes : ∀ op, (f op).remotes = op.remotes)
    (hkeepalive : ∀ op, (f op).keepalive = op.keepalive) : Same session s (s.setOp i f) :=
  ⟨rfl, fun _ _ => map_getElem?_modify hremotes, rfl, fun _ _ => map_getElem?_modify hkeepalive⟩

theorem thenSetOp (h : Same session s s') {i : Nat} {f : Op → Op} (hremotes : ∀ op, (f op).remotes = op.remotes)
    (hkeepalive : ∀ op, (f op).keepalive = op.keepalive) : Same session s (s'.setOp i f) :=
  h.trans (.setOp i f hremotes hkeepalive)

theorem setOther (hs : Owned s) (hoffer : s.OfferOf own i) (hown : own ≠ session) (f : Op → Op) :
    Same session s (s.setOp i f) := by
  have hne : ∀ j, s.OfferOf session j → i ≠ j := by
    rintro j ⟨op, hop, hsession, -⟩ rfl
    obtain ⟨op', hop', hsession', -⟩ := hoffer
    rw [hop] at hop'
    cases hop'
    rw [hsession] at hsession'
    exact hown (Option.some.inj hsession').symm
  refine ⟨rfl, fun j hj => ?_, rfl, fun j hj => ?_⟩
  · rw [State.setOp, List.getElem?_modify_ne _ _ (hne j (hs.agents session j hj))]
  · rw [State.setOp, List.getElem?_modify_ne _ _ (hne j (hs.keepalives session j hj))]

theorem setConn (c : Nat) (f : Conn → Conn) : Same session s (s.setConn c f) := .of_ops rfl rfl rfl

theorem reply (i : Nat) (r : Reply) : Same session s (s.reply i r) := .of_ops (by simp) (by simp) (by simp)

theorem reject (i : Nat) : Same session s (s.reject i) :=
  (setOp i (fun op => { op with phase := .failed, endpoint := false }) (fun _ => rfl) fun _ => rfl).trans (.reply _ _)

theorem erase_ne {t : Table SessionId Nat} (hown : own ≠ session) : t.erase own session = t session := by
  rw [Table.erase_apply, if_neg (Ne.symm hown)]

theorem removeAgent (hown : own ≠ session) (fate : Nat → AgentFate) : Same session s (s.removeAgent own fate) := by
  unfold State.removeAgent
  split
  · next i _ =>
    have hset : Same session s (s.setOp i fun op => { op with agent := fate i }) := .setOp _ _ (fun _ => rfl) fun _ => rfl
    exact hset.trans (.of_ops rfl (erase_ne hown) rfl)
  · exact .refl _ _

theorem cancelKeepalive (hs : Owned s) (hown : own ≠ session) : Same session s (s.cancelKeepalive own) := by
  unfold State.cancelKeepalive
  split
  · next i hi =>
    have hset : Same session s (s.setOp i fun op => { op with keepalive := false }) :=
      .setOther hs (hs.keepalives own i hi) hown _
    exact hset.trans (.of_ops rfl rfl (erase_ne hown))
  · exact .refl _ _

theorem registerAgent (hs : Owned s) (hoffer : s.OfferOf own i) (hown : own ≠ session) (remotes : List String) :
    Same session s (s.registerAgent i own remotes) := by
  have hregistered : ∀ {s₁ : State}, Owned s₁ → s₁.OfferOf own i → s₁.iceAgents = s.iceAgents →
      Same session s₁ { s₁.setOp i fun op => { op with agent := .registered, remotes := remotes } with
        iceAgents := s.iceAgents.insert own i } := by
    intro s₁ h₁ hoffer₁ hsame
    have hset : Same session s₁ (s₁.setOp i fun op => { op with agent := .registered, remotes := remotes }) :=
      .setOther h₁ hoffer₁ hown _
    refine hset.trans (.of_ops rfl ?_ rfl)
    show s.iceAgents.insert own i session = s₁.iceAgents session
    rw [Table.insert_apply, if_neg (Ne.symm hown), hsame]
  unfold State.registerAgent
  split
  · next j _ =>
    have hdisplaced : Same session s (s.setOp j fun op => { op with agent := .displaced i }) :=
      .setOp _ _ (fun _ => rfl) fun _ => rfl
    exact hdisplaced.trans (hregistered
      (hs.setOp j (fun op => { op with agent := .displaced i }) (fun _ => rfl) fun _ _ _ => rfl)
      (hoffer.setOp j (fun op => { op with agent := .displaced i }) (fun _ => rfl) fun _ _ _ => rfl) rfl)
  · exact hregistered hs hoffer rfl

theorem overwrite (i : Nat) (tag : String) : Same session s (s.overwrite i tag) := by
  unfold State.overwrite
  split
  · next j _ =>
    have hset : Same session s (s.setOp j fun op => { op with phase := .gone (.overwritten i) }) :=
      .setOp _ _ (fun _ => rfl) fun _ => rfl
    exact hset.trans (.of_ops rfl rfl rfl)
  · exact .of_ops rfl rfl rfl

end Same

/-! ## frames -/

section Frames

variable {s s' : State} {a : Action} {c i : Nat} {session : SessionId}

theorem State.Untouched.of_same (h : Same session s s') (hpending : s'.pending = s.pending) (hactive : s'.active = s.active)
    (hbridges : s'.bridges = s.bridges) : s.Untouched s' a c session where
  agent := h.agent
  candidates := h.candidates
  token := h.token
  keepalive := h.keepalive
  parked tag i hi _ := .inl (hpending ▸ hi)
  active := .inl (by rw [hactive])
  bridge b x _ hx := .inl (hbridges ▸ hx)

variable {own : SessionId} {info : SessionInfo}

theorem Owned.ne_own (h : Owned s) {k : Conn} (hinfo : s.sessions[session]? = some info)
    (hother : info.conn ≠ c) (hk : s.conns[c]? = some k) (hown : k.session = some own) : own ≠ session := by
  rintro rfl
  obtain ⟨info', hinfo', hconn⟩ := h.conns c k own hk hown
  rw [hinfo] at hinfo'
  cases hinfo'
  exact hother hconn

theorem Owned.ne_offer (h : Owned s) {op : Op} (hinfo : s.sessions[session]? = some info)
    (hother : info.conn ≠ c) (hop : s.ops[i]? = some op) (hconn : op.conn = some c) (hown : op.session = some own) :
    own ≠ session := by
  rintro rfl
  obtain ⟨own', info', hown', hinfo', hconn'⟩ := h.ops i op c hop hconn
  rw [hown] at hown'
  cases hown'
  rw [hinfo] at hinfo'
  cases hinfo'
  exact hother hconn'

theorem untouched_of_conns (hops : s'.ops = s.ops) (hbridges : s'.bridges = s.bridges) (hpending : s'.pending = s.pending)
    (hactive : s'.active = s.active) (hagents : s'.iceAgents = s.iceAgents)
    (hkeepalives : s'.iceKeepalives = s.iceKeepalives) :
    s.Untouched s' a c session :=
  .of_same (.of_ops hops (by rw [hagents]) (by rw [hkeepalives])) hpending hactive hbridges

theorem untouched_of_tag (hsame : Same session s s') {tag : String} (htag : s.tagOf a = some tag)
    (hpending : ∀ tag', tag' ≠ tag → s'.pending tag' = s.pending tag') (hactive : s'.active = s.active)
    (hbridges : s'.bridges = s.bridges) : s.Untouched s' a c session := by
  refine ⟨hsame.agent, hsame.candidates, hsame.token, hsame.keepalive, fun tag' j hj _ => ?_, .inl (by rw [hactive]),
    fun b x _ hx => .inl (hbridges ▸ hx)⟩
  by_cases htags : tag' = tag
  · exact .inr (htags ▸ htag)
  · exact .inl ((hpending tag' htags).trans hj)

theorem untouched_failChecks (hne : own ≠ session) : s.Untouched (s.failChecks i own) a c session := by
  refine .of_same ((Same.removeAgent hne _).trans (.reject _)) ?_ ?_ ?_ <;> simp [State.failChecks]

theorem Same.setPhases (h : Same session s s') (i j : Nat) (p q : Phase) (r : Reply) :
    Same session s (((s'.setOp j fun op => { op with phase := p }).setOp i fun op => { op with phase := q }).reply i r) := by
  have hj := h.trans (.setOp j (fun op => { op with phase := p }) (fun _ => rfl) fun _ => rfl)
  have hi := hj.trans (.setOp i (fun op => { op with phase := q }) (fun _ => rfl) fun _ => rfl)
  exact hi.trans (.reply i r)

theorem untouched (h : Owned s) (hinfo : s.sessions[session]? = some info) (hother : info.conn ≠ c)
    (hstep : s.step a = some s') (hconn : s.connOf a = some c)
    (hown : ∀ own, s.named a = some own → s.conns[c]?.bind Conn.session = some own) : s.Untouched s' a c session := by
  -- neither a connection's own session nor that of its offer is the session
  have hself : ∀ {own : SessionId}, s.conns[c]?.bind Conn.session = some own → own ≠ session := by
    intro own hsession
    obtain ⟨k, hk, hsession⟩ := Option.bind_eq_some_iff.mp hsession
    exact h.ne_own hinfo hother hk hsession
  have hoffer : ∀ {i : Nat} {op : Op} {own : SessionId}, s.ops[i]? = some op → s.ops[i]?.bind Op.conn = some c →
      op.session = some own → own ≠ session ∧ op.conn = some c := by
    intro i op own hop hc hsession
    rw [hop, Option.bind_some] at hc
    exact ⟨h.ne_offer hinfo hother hop hc hsession, hc⟩
  cases State.moves_of_step hstep with
  | connect | evict | spare | stopKeepalive | invite | hangUp | endDialog => contradiction
  | init | other | close => exact untouched_of_conns rfl rfl rfl rfl rfl rfl
  | offer =>
    have hkept : ∀ {j : Nat} {op : Op}, s.OfferOf session j → (s.ops ++ [op])[j]? = s.ops[j]? := by
      rintro j op ⟨x, hx, -⟩
      rw [List.getElem?_append_left (List.getElem?_eq_some_iff.mp hx).1]
    refine .of_same ⟨rfl, fun j hj => ?_, rfl, fun j hj => ?_⟩ rfl rfl rfl
    · exact congrArg (Option.map Op.remotes) (hkept (h.agents session j hj))
    · exact congrArg (Option.map Op.keepalive) (hkept (h.keepalives session j hj))
  | turnDown | note | found | miss | removeNothing => exact .of_same (.setConn _ _) rfl rfl rfl
  | @candidate c' own raw i hi =>
    obtain rfl : c' = c := Option.some.inj hconn
    have hlogged := h.setTask c'
      (fun k => { k with hungUp := false, log := k.log ++ [⟨.candidate, decide (k.session = some own), none⟩] })
      (fun _ => rfl) fun _ => Owned.log_append nofun
    exact .of_same ((Same.setConn c' _).trans
      (.setOther hlogged (hlogged.agents own i hi) (hself (hown own rfl)) _)) rfl rfl rfl
  | @bye c' own =>
    obtain rfl : c' = c := Option.some.inj hconn
    have hne := hself (hown own rfl)
    have hcancelled : Same session s (s.cancelKeepalive own) := .cancelKeepalive h hne
    have hforgotten := hcancelled.trans (.removeAgent hne fun _ => .dropped)
    have hreleased := hforgotten.trans (.of_ops (by simp) (by simp) (by simp) :
      Same session _ (((s.cancelKeepalive own).removeAgent own fun _ => .dropped).releaseBridge own))
    have hsame := hreleased.trans (.setConn c' fun k => { k with task := some (.finding own), hungUp := false })
    refine ⟨hsame.agent, hsame.candidates, hsame.token, hsame.keepalive, fun tag i hi _ => .inl (by simpa using hi),
      .inl (by simp [Same.erase_ne hne]), fun b x hb hx => ?_⟩
    by_cases hshared : s.active own = some b
    · exact .inr ⟨own, hown own rfl, hshared⟩
    · left
      simp only [State.setConn_frame, State.releaseBridge, State.removeAgent_frame, State.cancelKeepalive_frame]
      split
      · next b' hb' =>
        have hbb : b' ≠ b := fun heq => hshared (heq ▸ hb')
        rw [List.getElem?_modify_ne _ _ hbb]
        simpa using hx
      · simpa using hx
  | @remove c' own tag i k hk htask =>
    have herased : Same session s { s with pending := s.pending.erase tag } := .of_ops rfl rfl rfl
    have hset := herased.trans (.setOp i
      (fun op => { op with evictor := false, endpoint := false, phase := .gone (.bye own) }) (fun _ => rfl) fun _ => rfl)
    have hsame : Same session s _ := hset.trans (.setConn c' fun k =>
      { k with task := none, hungUp := decide (k.session = some own)
               log := k.log ++ [⟨.bye, decide (k.session = some own), none⟩] })
    exact untouched_of_tag hsame (by simp [State.tagOf, hk, htask])
      (fun _ hne => (Table.erase_apply ..).trans (if_neg hne)) rfl rfl
  | rejected | unsecured => exact .of_same (.reject _) (by simp) (by simp) (by simp)
  | withoutIce | tagged | wait => exact .of_same (.setOp _ _ (fun _ => rfl) fun _ => rfl) rfl rfl rfl
  | brokenIce hop _ hsession | unchecked hop _ hsession => exact untouched_failChecks (hoffer hop hconn hsession).1
  | @withIce i _ own remotes _ _ hop _ hsession =>
    obtain ⟨hne, hc⟩ := hoffer hop hconn hsession
    have hregistered : Same session s (s.registerAgent i own remotes) :=
      .registerAgent h (Owned.offerOf hop hsession hc) hne _
    exact .of_same (.thenSetOp hregistered (fun _ => rfl) fun _ => rfl) (by simp) (by simp) (by simp)
  | @checked i _ own _ hop _ hsession =>
    obtain ⟨hne, hc⟩ := hoffer hop hconn hsession
    have hset : Same session s (s.setOp i fun op => { op with keepalive := true, phase := .securing }) :=
      .setOther h (Owned.offerOf hop hsession hc) hne _
    refine .of_same (hset.trans (.of_ops rfl rfl ?_)) rfl rfl rfl
    show s.iceKeepalives.insert own i session = s.iceKeepalives session
    rw [Table.insert_apply, if_neg (Ne.symm hne)]
  | @single i =>
    exact .of_same ((Same.setOp i (fun op => { op with phase := .single }) (fun _ => rfl) fun _ => rfl).trans (.reply _ _))
      (by simp) (by simp) (by simp)
  | @meet i j tag op hop htag =>
    have herased : Same session s { s with pending := s.pending.erase tag } := .of_ops rfl rfl rfl
    have htaken := herased.trans (.setOp j
      (fun op => { op with evictor := false, phase := .taken i }) (fun _ => rfl) fun _ => rfl)
    have hsame := htaken.trans (.setOp i (fun op => { op with phase := .bridging j }) (fun _ => rfl) fun _ => rfl)
    exact untouched_of_tag hsame (by simp [State.tagOf, hop, htag])
      (fun _ hne => (Table.erase_apply ..).trans (if_neg hne)) rfl rfl
  | @park i _ tag op hop htag =>
    have htagOf : s.tagOf (.park i) = some tag := by simp [State.tagOf, hop, htag]
    have hset : Same session s ((s.overwrite i tag).setOp i fun op => { op with phase := .parked, evictor := true }) :=
      .thenSetOp (.overwrite i tag) (fun _ => rfl) fun _ => rfl
    exact untouched_of_tag (hset.trans (.reply _ _)) htagOf
      (fun tag' hne => by simp [Table.insert_apply, hne]) (by simp) (by simp)
  | @parkDialog i tag op hop htag =>
    have htagOf : s.tagOf (.park i) = some tag := by simp [State.tagOf, hop, htag]
    have hset : Same session s ((s.overwrite i tag).setOp i fun op =>
        { op with phase := .parked, evictor := true, session := some s.syntheticSession }) :=
      .thenSetOp (.overwrite i tag) (fun _ => rfl) fun _ => rfl
    exact untouched_of_tag (hset.trans (.of_ops rfl rfl rfl)) htagOf
      (fun tag' hne => by simp [Table.insert_apply, hne]) (by simp) (by simp)
  | @bridge i j op partner hop hphase hpartner =>
    have hentered : Same session s (((s.install i j).enter op.entered s.bridges.length).enter partner.session s.bridges.length) :=
      .of_ops (by simp) (by simp) (by simp)
    have hsame := hentered.setPhases i j (.paired s.bridges.length) (.paired s.bridges.length) .answer
    refine ⟨hsame.agent, hsame.candidates, hsame.token, hsame.keepalive, fun tag k hk _ => .inl (by simpa using hk), ?_,
      fun b x _ hx => .inl ?_⟩
    · by_cases hpairs : partner.session = some session
      · exact .inr ⟨rfl, j, partner, by rw [hop, Option.map_some, hphase], hpartner, hpairs⟩
      · left
        have hnot : op.entered ≠ some session := by
          intro hentered
          obtain ⟨-, -, hsession⟩ := Option.bind_eq_some_iff.mp hentered
          exact (hoffer hop hconn hsession).1 rfl
        simp only [State.reply_frame, State.setOp_frame]
        rw [State.active_enter_of_ne _ _ hpairs, State.active_enter_of_ne _ _ hnot]
        rfl
    · simp only [State.reply_frame, State.setOp_frame, State.enter_frame, State.install_frame]
      rw [List.getElem?_append_left (List.getElem?_eq_some_iff.mp hx).1, hx]
  | strand => exact .of_same ((Same.refl _ _).setPhases _ _ _ _ _) (by simp) (by simp) (by simp)

end Frames

/-- In every state that can be reached, a frame on connection `c` leaves alone what
belongs to a session of another connection but for a leg under the tag it works under
and a bridge of both; it is not a candidate or bye for another session.  Offers for
another session are answered with an error. -/
theorem isolated {acts : List Action} {s : State} (hexec : exec State.step {} acts = some s) :
    s.OffersChecked ∧ ∀ (a : Action) (s' : State) (c : Nat) (session : SessionId) (info : SessionInfo),
      s.step a = some s' → s.connOf a = some c → (∀ own, s.named a = some own → s.conns[c]?.bind Conn.session = some own) →
      s.sessions[session]? = some info → info.conn ≠ c → s.Untouched s' a c session := by
  have hinit : Owned {} := by
    refine ⟨?_, ?_, ?_, ?_, ?_⟩ <;> simp [State.OffersChecked]
  have h : Owned s := exec_invariant (fun _ _ _ hs hstep => hs.step hstep) hexec hinit
  exact ⟨h.replies, fun _ _ _ _ _ hstep hconn hown hinfo hother => untouched h hinfo hother hstep hconn hown⟩

/-- Two connections with sessions under one tag; the leg of the first is parked, with an
agent and a keepalive task. -/
def parkedRun : List Action :=
  [.connect, .connect, .init 0 (some "room"), .init 1 (some "room"), .offer 0 0 true true,
    .negotiated 0 (.accepted (.on ["relay"]) true), .checked 0 true, .secured 0 true, .look 0, .park 0]

/-- A third connection with a parked leg under another tag. -/
def besideRun : List Action :=
  parkedRun ++ ([.connect, .init 2 (some "hall"), .offer 2 2 true true,
    .negotiated 1 (.accepted (.on ["relay"]) true), .checked 1 true, .secured 1 true, .look 1,
    .park 1] : List Action)

/-- A candidate of the third connection is added to those of its own session. -/
theorem isolated_besideRun :
    ∃ s s', exec State.step {} besideRun = some s ∧ s.step (.candidate 2 2 "host" true) = some s' ∧
      s'.ops[1]?.map Op.remotes = some ["relay", "host"] ∧ s.pending "room" = some 0 ∧
      s.iceAgents 0 = some 0 ∧ s.OffersChecked ∧ s.Untouched s' (.candidate 2 2 "host" true) 2 0 := by
  have hview : (exec State.step {} besideRun).map (fun s =>
      ((s.step (.candidate 2 2 "host" true)).map fun s' => s'.ops[1]?.map Op.remotes,
        s.pending "room", s.iceAgents 0)) = some (some (some ["relay", "host"]), some 0, some 0) := by
    decide +kernel
  have hsessions : (exec State.step {} besideRun).map (fun s =>
      (s.conns[2]?.bind Conn.session, s.sessions[0]?)) = some (some 2, some ⟨0, some "room"⟩) := by
    decide +kernel
  obtain ⟨s, hexec, hview⟩ := Option.map_eq_some_iff.mp hview
  rw [hexec, Option.map_some, Option.some.injEq, Prod.mk.injEq] at hsessions
  simp only [Prod.mk.injEq] at hview
  obtain ⟨hstep, hpending, hagent⟩ := hview
  obtain ⟨hsession, hinfo⟩ := hsessions
  obtain ⟨s', hstep, hadded⟩ := Option.map_eq_some_iff.mp hstep
  obtain ⟨hreplies, huntouched⟩ := isolated hexec
  refine ⟨s, s', hexec, hstep, hadded, hpending, hagent, hreplies,
    huntouched _ s' 2 0 _ hstep rfl (fun own hown => ?_) hinfo (by decide)⟩
  obtain rfl := Option.some.inj hown
  exact hsession

/-- Nothing of the session is changed. -/
structure State.Unchanged (s s' : State) (session : SessionId) : Prop extends Same session s s' where
  parked : ∀ tag i, s.pending tag = some i → s.ops[i]?.bind Op.session = some session → s'.pending tag = some i
  active : s'.active session = s.active session
  bridge : ∀ b x, s.active session = some b → s.bridges[b]? = some x → s'.bridges[b]? = some x

/-- The second connection makes an offer that takes the parked leg of the first. -/
def meetingRun : List Action :=
  parkedRun ++ ([.offer 1 1 true true, .negotiated 1 (.accepted .off false), .secured 1 true] : List Action)

/-- The second connection says bye for the session of the first. -/
def strangeByeRun : List Action :=
  parkedRun ++ ([.bye 1 0, .find 1 (some "room"), .remove 1] : List Action)

/-- An offer changes the parked leg of another connection's session; and a bye for
another connection's session is obeyed, and not answered with an error. -/
theorem sessions_meet :
    (∃ s s', exec State.step {} meetingRun = some s ∧ s.step (.look 1) = some s' ∧ s.connOf (.look 1) = some 1 ∧
      s.sessions[0]? = some ⟨0, some "room"⟩ ∧ ¬ s.Unchanged s' 0) ∧
    ∃ s, exec State.step {} strangeByeRun = some s ∧ s.pending "room" = none ∧ s.iceAgents 0 = none ∧
      ¬ ∀ k ∈ s.conns, ∀ h ∈ k.log, h.own = false → ∃ code, h.reply = some (.error code) := by
  constructor
  · have hview : (exec State.step {} meetingRun).map (fun s =>
        ((s.step (.look 1)).map (fun s' => s'.pending "room"), s.connOf (.look 1), s.sessions[0]?)) =
        some (some none, some 1, some ⟨0, some "room"⟩) := by
      decide +kernel
    have hleg : (exec State.step {} meetingRun).map (fun s => (s.pending "room", s.ops[0]?.bind Op.session)) =
        some (some 0, some 0) := by
      decide +kernel
    obtain ⟨s, hexec, hview⟩ := Option.map_eq_some_iff.mp hview
    rw [hexec, Option.map_some, Option.some.injEq, Prod.mk.injEq] at hleg
    simp only [Prod.mk.injEq] at hview
    obtain ⟨hstep, hconn, hinfo⟩ := hview
    obtain ⟨hparked, hsession⟩ := hleg
    obtain ⟨s', hstep, hgone⟩ := Option.map_eq_some_iff.mp hstep
    refine ⟨s, s', hexec, hstep, hconn, hinfo, fun h => ?_⟩
    have hkept := h.parked "room" 0 hparked hsession
    rw [hgone] at hkept
    contradiction
  · have hview : (exec State.step {} strangeByeRun).map (fun s =>
        (s.pending "room", s.iceAgents 0, s.conns[1]?.map Conn.log)) = some (none, none, some [⟨.bye, false, none⟩]) := by
      decide +kernel
    obtain ⟨s, hexec, hview⟩ := Option.map_eq_some_iff.mp hview
    simp only [Prod.mk.injEq] at hview
    obtain ⟨hpending, hagent, hlog⟩ := hview
    obtain ⟨k, hk, hlog⟩ := Option.map_eq_some_iff.mp hlog
    refine ⟨s, hexec, hpending, hagent, fun h => ?_⟩
    obtain ⟨code, hcode⟩ := h k (List.mem_of_getElem? hk) ⟨.bye, false,
      none⟩ (by rw [hlog]; exact List.mem_singleton_self _) rfl
    contradiction

end SmithsNet.Webrtc
