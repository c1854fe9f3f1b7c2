import SmithsNet.Webrtc.Isolation

/-!
# SmithsNet.Webrtc.Release

What an offer has acquired, and who gives it back.

An offer is given an endpoint, an agent, a keepalive task and a bridge, one after the
other.  A rejected offer gives its endpoint back, a bye drops the session's agent, its
keepalive task and its bridge and releases the endpoint of a leg that is still parked,
and a deadline does the last; the end of a socket does nothing.  Three invariants say
what that leaves: `Seats` for the endpoints and the map of parked legs, in every run;
`Agents` for agents and keepalive tasks, and `Quits` for the connections that have
ended, where every step `Settles` what it leaves behind.

`released_iff`: nothing of an ended connection and nothing of a rejected offer is left,
in every state of a run, exactly when every step of it settles.
-/

namespace SmithsNet.Webrtc

open Lib Option List

/-! ## statements -/

/-- The endpoint has been given back. -/
def Phase.freed : Phase → Bool
  | .failed | .gone (.bye _) | .gone (.deadline _) => true
  | _ => false

/-- The offer holds nothing any more. -/
def Op.spent (op : Op) : Bool := op.phase.freed && decide (op.agent ≠ .registered) && !op.keepalive

/-- The socket is closed, or the last frame was a bye for the connection's session. -/
def Conn.over (k : Conn) : Bool := k.closed || k.hungUp

namespace State

variable (s : State)

/-- Nothing is left of a connection that has ended, or of an offer that was answered with an
error. -/
structure Released : Prop where
  ended : ∀ (c : Nat) (k : Conn), s.conns[c]? = some k → k.task = none → k.over = true →
    ∀ (i : Nat) (op : Op), s.ops[i]? = some op → op.conn = some c →
      op.endpoint = false ∧ (∀ session, s.iceAgents session ≠ some i) ∧ op.keepalive = false ∧
        ∀ b x, op.phase = .paired b → s.bridges[b]? = some x → x.live = false
  /-- Its endpoint is released, no map holds it, and no leg or agent of another has left for it. -/
  failed : ∀ (i : Nat) (op : Op), s.ops[i]? = some op → op.conn.isSome = true → op.phase = .failed →
    op.endpoint = false ∧ op.keepalive = false ∧
      (∀ session, s.iceAgents session ≠ some i ∧ s.iceKeepalives session ≠ some i) ∧
      ∀ op' ∈ s.ops, op'.agent ≠ .displaced i ∧ op'.phase ≠ .gone (.stranded i)

/-- The session of the bye that is being handled, if it is the connection's own. -/
def quitting (c : Nat) : Bool :=
  (s.conns[c]?).any fun k =>
    match k.task with
    | some (.finding session) | some (.removing session _) => decide (k.session = some session)
    | _ => false

/-- The leg that a bye is about to remove. -/
def removed (c : Nat) : Option Nat :=
  match s.conns[c]?.bind Conn.task with
  | some (.removing _ tag) => s.pending tag
  | _ => none

/-- A connection ends when its offers hold nothing but a parked leg that its bye removes; an
offer fails before it has an agent that stays or has taken the place of another's, and its bridge
is installed. -/
def Settles : Action → Prop
  | .close c => ∀ op ∈ s.ops, op.conn = some c → op.spent = true
  | .find c none => s.quitting c = true → ∀ op ∈ s.ops, op.conn = some c → op.spent = true
  | .remove c => s.quitting c = true → ∀ i < s.ops.length, ∀ op ∈ s.ops[i]?, op.conn = some c →
      op.spent = true ∨ (s.removed c = some i ∧ op.agent ≠ .registered ∧ op.keepalive = false)
  | .negotiated i (.accepted .broken _) => ∀ op ∈ s.ops[i]?, ∀ session ∈ op.session, s.iceAgents session = none
  | .checked i false => ∀ op ∈ s.ops[i]?, ∀ session ∈ op.session,
      (∀ j ∈ s.iceAgents session, j = i) ∧ ∀ op' ∈ s.ops, op'.agent ≠ .displaced i
  | .secured i false => ∀ op ∈ s.ops[i]?, op.agent ≠ .registered ∧ op.keepalive = false ∧
      (∀ session ∈ op.session, s.iceKeepalives session ≠ some i) ∧ ∀ op' ∈ s.ops, op'.agent ≠ .displaced i
  | .bridged i false => ∀ op ∈ s.ops[i]?, op.conn = none
  | _ => True

instance decidableSettles : ∀ a, Decidable (s.Settles a)
  | .close _ => inferInstanceAs (Decidable (∀ _ ∈ _, _ → _))
  | .find _ none => inferInstanceAs (Decidable (_ → ∀ _ ∈ _, _ → _))
  | .remove _ => inferInstanceAs (Decidable (_ → ∀ i < _, ∀ _ ∈ s.ops[i]?, _ → _))
  | .negotiated _ (.accepted .broken _) => inferInstanceAs (Decidable (∀ _ ∈ _, ∀ _ ∈ _, _))
  | .checked _ false => inferInstanceAs (Decidable (∀ _ ∈ _, ∀ _ ∈ _, (∀ _ ∈ _, _) ∧ ∀ _ ∈ _, _))
  | .secured _ false => inferInstanceAs (Decidable (∀ _ ∈ _, _ ∧ _ ∧ (∀ _ ∈ _, _) ∧ ∀ _ ∈ _, _))
  | .bridged _ false => inferInstanceAs (Decidable (∀ _ ∈ _, _))
  | .find _ (some _) | .negotiated _ .rejected | .negotiated _ (.accepted .off _) | .negotiated _ (.accepted (.on _) _)
  | .checked _ true | .secured _ true | .bridged _ true | .connect | .init _ _ | .offer _ _ _ _ | .candidate _ _ _ _
  | .bye _ _ | .other _ | .look _ | .park _ | .evict _ | .stopKeepalive _ | .invite _ | .endDialog _ => isTrue trivial

end State

/-! ## places -/

namespace State

variable {s : State} {i k : Nat} {op x : Op} {f : Op → Op}

theorem setOp_self (hop : s.ops[i]? = some op) : (s.setOp i f).ops[i]? = some (f op) := by
  simp [hop]

theorem setOp_ne (f : Op → Op) (hne : i ≠ k) : (s.setOp i f).ops[k]? = s.ops[k]? :=
  getElem?_modify_ne _ _ hne

theorem ops_setOp_none (hnone : s.ops[i]? = none) (f : Op → Op) : (s.setOp i f).ops = s.ops := by
  apply ext_getElem?
  intro m
  by_cases him : i = m
  · subst him
    simp [hnone]
  · exact setOp_ne f him

section

variable (hop : s.ops[i]? = some op)
include hop

theorem slot_setOp (hx : (s.setOp i f).ops[k]? = some x) :
    i ≠ k ∧ s.ops[k]? = some x ∨ i = k ∧ x = f op := by
  by_cases hik : i = k
  · subst hik
    rw [setOp_self hop, Option.some.injEq] at hx
    exact .inr ⟨rfl, hx.symm⟩
  · exact .inl ⟨hik, (setOp_ne f hik).symm.trans hx⟩

theorem op_removeAgent (session : SessionId) (fate : Nat → AgentFate) :
    ∃ agent, (s.removeAgent session fate).ops[i]? = some { op with agent := agent } := by
  unfold removeAgent
  split
  · next k _ =>
    by_cases hki : k = i
    · subst hki
      exact ⟨fate k, setOp_self hop⟩
    · exact ⟨op.agent, (setOp_ne _ hki).trans hop⟩
  · exact ⟨op.agent, hop⟩

theorem op_registerAgent (session : SessionId) (remotes : List String) :
    (s.registerAgent i session remotes).ops[i]? = some { op with agent := .registered, remotes := remotes } := by
  unfold registerAgent
  split
  · next k _ =>
    by_cases hki : k = i
    · subst hki
      have hdisplaced : (s.setOp k fun op => { op with agent := .displaced k }).ops[k]? =
          some { op with agent := .displaced k } := setOp_self hop
      have hregistered := setOp_self (f := fun op => { op with agent := .registered, remotes := remotes }) hdisplaced
      exact hregistered
    · exact setOp_self ((setOp_ne _ hki).trans hop)
  · exact setOp_self hop

end

end State

/-! ## endpoints -/

/-- Only offers are in these phases. -/
def Phase.opening : Phase → Bool
  | .negotiating | .checking | .securing => true
  | _ => false

/-- Who is in the map, who has taken whom, and whose endpoint is released. -/
structure Seats (s : State) : Prop where
  found : ∀ (tag : String) (i : Nat), s.pending tag = some i →
    ∃ op : Op, s.ops[i]? = some op ∧ op.tag = some tag ∧ op.phase = .parked
  bridging : ∀ (i : Nat) (op : Op) (j : Nat), s.ops[i]? = some op → op.phase = .bridging j →
    ∃ op' : Op, s.ops[j]? = some op' ∧ op'.phase = .taken i
  dialog : ∀ (i : Nat) (op : Op), s.ops[i]? = some op → op.conn = none → op.phase.opening = false
  endpoint : ∀ (i : Nat) (op : Op), s.ops[i]? = some op → op.conn.isSome = true → op.endpoint = !op.phase.freed

namespace Seats

variable {s s' : State} {i j c : Nat} {op op' : Op} {tag : String}

theorem empty : Seats {} := by
  refine ⟨?_, ?_, ?_, ?_⟩
  all_goals
    intros
    simp_all

theorem congr (h : Seats s) (hpending : s'.pending = s.pending) (hops : s'.ops = s.ops) : Seats s' := by
  refine ⟨?_, ?_, ?_, ?_⟩
  · rw [hpending, hops]
    exact h.found
  · rw [hops]
    exact h.bridging
  · rw [hops]
    exact h.dialog
  · rw [hops]
    exact h.endpoint

/-- What an operation may become, as far as others depend on it. -/
structure Moves (s : State) (i : Nat) (op op' : Op) : Prop where
  conn : op'.conn = op.conn
  tag : op'.tag = op.tag
  bridging : ∀ j, op'.phase = .bridging j → op.phase = .bridging j ∨
    (j ≠ i ∧ ∃ x : Op, s.ops[j]? = some x ∧ x.phase = .taken i)
  taken : ∀ k, op.phase = .taken k → op'.phase = .taken k ∨ ∀ x : Op, s.ops[k]? = some x → x.phase ≠ .bridging i
  dialog : op.conn = none → op'.phase.opening = false
  endpoint : op.conn.isSome = true → op'.endpoint = !op'.phase.freed

theorem Moves.same (h : Seats s) (hop : s.ops[i]? = some op) (hconn : op'.conn = op.conn) (htag : op'.tag = op.tag)
    (hphase : op'.phase = op.phase) (hendpoint : op.conn.isSome = true → op'.endpoint = op.endpoint) :
    Moves s i op op' where
  conn := hconn
  tag := htag
  bridging j hj := .inl (hphase.symm.trans hj)
  taken k hk := .inl (hphase.trans hk)
  dialog hnone := by
    rw [hphase]
    exact h.dialog i op hop hnone
  endpoint hsome := by
    rw [hphase, hendpoint hsome]
    exact h.endpoint i op hop hsome

variable {f : Op → Op}

section

variable (h : Seats s)
include h

/-- An operation changes, and the map, but for whom it holds already, only by what has become of it. -/
theorem change (hop : s.ops[i]? = some op) {pending : Table String Nat}
    (hpending : ∀ tag k, pending tag = some k →
      s.pending tag = some k ∧ (i = k → op.tag = some tag → (f op).phase = .parked) ∨
      i = k ∧ op.tag = some tag ∧ (f op).phase = .parked)
    (hmoves : Moves s i op (f op)) : Seats (({ s with pending := pending } : State).setOp i f) := by
  have hself := State.setOp_self (f := f) hop
  have hother : ∀ {k : Nat}, i ≠ k → (s.setOp i f).ops[k]? = s.ops[k]? := State.setOp_ne f
  constructor
  · intro tag k hk
    obtain ⟨hold, hparked⟩ | ⟨rfl, htag, hparked⟩ := hpending tag k hk
    · obtain ⟨x, hx, htag, hwas⟩ := h.found tag k hold
      by_cases hik : i = k
      · subst hik
        obtain rfl : op = x := mem_unique hop hx
        exact ⟨f op, hself, hmoves.tag.trans htag, hparked rfl htag⟩
      · exact ⟨x, (hother hik).trans hx, htag, hwas⟩
    · exact ⟨f op, hself, hmoves.tag.trans htag, hparked⟩
  · intro k x m hx hbridging
    obtain ⟨hik, hold⟩ | ⟨rfl, rfl⟩ := State.slot_setOp hop hx
    · obtain ⟨y, hy, htaken⟩ := h.bridging k x m hold hbridging
      by_cases him : i = m
      · subst him
        obtain rfl : op = y := mem_unique hop hy
        obtain hstill | hnone := hmoves.taken k htaken
        · exact ⟨f op, hself, hstill⟩
        · exact absurd hbridging (hnone x hold)
      · exact ⟨y, (hother him).trans hy, htaken⟩
    · obtain hwas | ⟨hne, y, hy, htaken⟩ := hmoves.bridging m hbridging
      · obtain ⟨y, hy, htaken⟩ := h.bridging i op m hop hwas
        by_cases him : i = m
        · subst him
          obtain rfl : op = y := mem_unique hop hy
          rw [hwas] at htaken
          contradiction
        · exact ⟨y, (hother him).trans hy, htaken⟩
      · exact ⟨y, (hother hne.symm).trans hy, htaken⟩
  · intro k x hx hnone
    obtain ⟨-, hold⟩ | ⟨rfl, rfl⟩ := State.slot_setOp hop hx
    · exact h.dialog k x hold hnone
    · exact hmoves.dialog (hmoves.conn.symm.trans hnone)
  · intro k x hx hsome
    obtain ⟨-, hold⟩ | ⟨rfl, rfl⟩ := State.slot_setOp hop hx
    · exact h.endpoint k x hold hsome
    · exact hmoves.endpoint (hmoves.conn ▸ hsome)

theorem setOp (hop : s.ops[i]? = some op) (hparked : op.phase = .parked → (f op).phase = .parked)
    (hmoves : Moves s i op (f op)) : Seats (s.setOp i f) := by
  refine h.change hop (fun tag k hk => .inl ⟨hk, ?_⟩) hmoves
  rintro rfl -
  obtain ⟨x, hx, -, hwas⟩ := h.found tag i hk
  obtain rfl : op = x := mem_unique hop hx
  exact hparked hwas

theorem addOp (hphase : op.phase = .negotiating ∨ op.phase = .looking)
    (hconn : op.conn = none → op.phase = .looking) (hendpoint : op.endpoint = true) :
    Seats { s with ops := s.ops ++ [op] } := by
  have hkept : ∀ {k : Nat} {x : Op}, s.ops[k]? = some x → (s.ops ++ [op])[k]? = some x := by
    intro k x hx
    rw [getElem?_append_left (List.getElem?_eq_some_iff.mp hx).1, hx]
  constructor
  · intro tag k hk
    obtain ⟨x, hx, hrest⟩ := h.found tag k hk
    exact ⟨x, hkept hx, hrest⟩
  · intro k x m hx hbridging
    obtain hx | rfl := slot_append hx
    · obtain ⟨y, hy, htaken⟩ := h.bridging k x m hx hbridging
      exact ⟨y, hkept hy, htaken⟩
    · obtain hphase | hphase := hphase <;> rw [hphase] at hbridging <;> contradiction
  · intro k x hx hnone
    obtain hx | rfl := slot_append hx
    · exact h.dialog k x hx hnone
    · rw [hconn hnone]
      rfl
  · intro k x hx hsome
    obtain hx | rfl := slot_append hx
    · exact h.endpoint k x hx hsome
    · rw [hendpoint]
      obtain hphase | hphase := hphase <;> rw [hphase] <;> rfl

theorem unpark (hpending : s.pending tag = some i) (hconn : ∀ op, (f op).conn = op.conn)
    (htag : ∀ op, (f op).tag = op.tag) (hphase : ∀ op, (∃ k, (f op).phase = .taken k) ∨ ∃ how, (f op).phase = .gone how)
    (hendpoint : ∀ op : Op, op.endpoint = true → (f op).endpoint = !(f op).phase.freed) :
    Seats (({ s with pending := s.pending.erase tag } : State).setOp i f) := by
  obtain ⟨op, hop, hoptag, hparked⟩ := h.found tag i hpending
  -- before the leg becomes what it becomes, it is only out of the map
  have hout : (∀ j, (f op).phase ≠ .bridging j) ∧ (f op).phase.opening = false := by
    obtain ⟨k, hk⟩ | ⟨how, hhow⟩ := hphase op
    · rw [hk]
      exact ⟨nofun, rfl⟩
    · rw [hhow]
      exact ⟨nofun, rfl⟩
  refine h.change hop (fun tag' k hk => .inl ?_) ⟨hconn op, htag op,
    fun j hj => absurd hj (hout.1 j), ?_, fun _ => hout.2, ?_⟩
  · rw [Table.erase_apply] at hk
    split at hk
    · contradiction
    · next hne =>
      refine ⟨hk, fun _ htag' => ?_⟩
      rw [hoptag, Option.some.injEq] at htag'
      exact absurd htag'.symm hne
  · intro k hk
    rw [hparked] at hk
    contradiction
  · intro hsome
    apply hendpoint
    have hheld := h.endpoint i op hop hsome
    rw [hparked] at hheld
    exact hheld

theorem seat (hop : s.ops[i]? = some op) (hparking : op.phase = .parking)
    (hoptag : op.tag = some tag) (hconn : (f op).conn = op.conn) (htag : (f op).tag = op.tag)
    (hphase : (f op).phase = .parked) (hendpoint : (f op).endpoint = op.endpoint) :
    Seats (({ s with pending := s.pending.insert tag i } : State).setOp i f) := by
  refine h.change hop (fun tag' k hk => ?_) ⟨hconn, htag, ?_, ?_, ?_, ?_⟩
  · rw [Table.insert_apply] at hk
    split at hk
    · next heq =>
      cases hk
      exact .inr ⟨rfl, by rw [hoptag, heq], hphase⟩
    · exact .inl ⟨hk, fun _ _ => hphase⟩
  · rw [hphase]
    nofun
  · rw [hparking]
    nofun
  · rw [hphase]
    exact fun _ => rfl
  · intro hsome
    rw [hphase, hendpoint, h.endpoint i op hop hsome, hparking]
    rfl

end

section Steps

variable {f : Op → Op}

section

variable (h : Seats s)
include h

theorem setAgent (k : Nat) (hf : ∀ op, (f op).conn = op.conn ∧ (f op).tag = op.tag ∧
    (f op).phase = op.phase ∧ (f op).endpoint = op.endpoint) : Seats (s.setOp k f) := by
  cases hk : s.ops[k]? with
  | some op =>
    obtain ⟨hconn, htag, hphase, hendpoint⟩ := hf op
    exact h.setOp hk hphase.trans (.same h hk hconn htag hphase fun _ => hendpoint)
  | none => exact h.congr rfl (State.ops_setOp_none hk f)

theorem removeAgent (session : SessionId) (fate : Nat → AgentFate) : Seats (s.removeAgent session fate) := by
  unfold State.removeAgent
  split
  · next k _ =>
    have hset : Seats (s.setOp k fun op => { op with agent := fate k }) := h.setAgent k fun _ => ⟨rfl, rfl, rfl, rfl⟩
    exact hset.congr rfl rfl
  · exact h

theorem cancelKeepalive (session : SessionId) : Seats (s.cancelKeepalive session) := by
  unfold State.cancelKeepalive
  split
  · next k _ =>
    have hset : Seats (s.setOp k fun op => { op with keepalive := false }) := h.setAgent k fun _ => ⟨rfl, rfl, rfl, rfl⟩
    exact hset.congr rfl rfl
  · exact h

theorem registerAgent (i : Nat) (session : SessionId) (remotes : List String) :
    Seats (s.registerAgent i session remotes) := by
  have hregistered : ∀ {s₁ : State}, Seats s₁ →
      Seats (s₁.setOp i fun op => { op with agent := .registered, remotes := remotes }) :=
    fun h₁ => h₁.setAgent i fun _ => ⟨rfl, rfl, rfl, rfl⟩
  unfold State.registerAgent
  split
  · next k _ =>
    have hdisplaced : Seats (s.setOp k fun op => { op with agent := .displaced i }) :=
      h.setAgent k fun _ => ⟨rfl, rfl, rfl, rfl⟩
    exact (hregistered hdisplaced).congr rfl rfl
  · exact (hregistered h).congr rfl rfl

theorem reply (i : Nat) (r : Reply) : Seats (s.reply i r) := h.congr (by simp) (by simp)

end

section

variable (h : Seats s) (hop : s.ops[i]? = some op) (hopening : op.phase.opening = true)
include h hop hopening

theorem advance (hconn : (f op).conn = op.conn) (htag : (f op).tag = op.tag)
    (hphase : ∀ j, (f op).phase ≠ .bridging j) (hendpoint : (f op).endpoint = !(f op).phase.freed) : Seats (s.setOp i f) := by
  refine h.setOp hop ?_ ⟨hconn, htag, ?_, ?_, ?_, fun _ => hendpoint⟩
  · intro hparked
    rw [hparked] at hopening
    contradiction
  · exact fun j hj => absurd hj (hphase j)
  · intro k hk
    rw [hk] at hopening
    contradiction
  · intro hnone
    rw [h.dialog i op hop hnone] at hopening
    contradiction

theorem endpoint_of_opening : op.conn.isSome = true ∧ op.endpoint = true := by
  have hsome : op.conn.isSome = true := by
    cases hconn : op.conn with
    | some c => rfl
    | none =>
      rw [h.dialog i op hop hconn] at hopening
      contradiction
  refine ⟨hsome, ?_⟩
  rw [h.endpoint i op hop hsome]
  cases hphase : op.phase <;> rw [hphase] at hopening <;> first | contradiction | rfl

theorem reject : Seats (s.reject i) :=
  (h.advance hop hopening (f := fun op => { op with phase := .failed, endpoint := false }) rfl rfl nofun rfl).reply i _

theorem failChecks (session : SessionId) : Seats (s.failChecks i session) := by
  obtain ⟨agent, hop'⟩ := State.op_removeAgent hop session fun j => if j = i then .dropped else .displaced i
  exact (h.removeAgent session _).reject hop' hopening

end

theorem ne_of_pending (h : Seats s) (hpending : s.pending tag = some j) (hop : s.ops[i]? = some op)
    (hphase : op.phase ≠ .parked) :
    j ≠ i := by
  obtain ⟨partner, hpartner, -, hparked⟩ := h.found tag j hpending
  rintro rfl
  obtain rfl : op = partner := mem_unique hop hpartner
  exact hphase hparked

section

variable (h : Seats s) (hop : s.ops[i]? = some op)
include h hop

theorem looks (hphase : op.phase = .looking) {p : Phase} (hopening : p.opening = false)
    (hfreed : p.freed = false) (hbridging : ∀ k, p = .bridging k → k ≠ i ∧ ∃ x :
      Op, s.ops[k]? = some x ∧ x.phase = .taken i) :
    Seats (s.setOp i fun op => { op with phase := p }) := by
  refine h.setOp hop ?_ ⟨rfl, rfl, fun k hk => .inr (hbridging k hk), ?_, fun _ => hopening, ?_⟩
  · intro hparked
    rw [hphase] at hparked
    contradiction
  · intro k hk
    rw [hphase] at hk
    contradiction
  · intro hsome
    show op.endpoint = !p.freed
    rw [h.endpoint i op hop hsome, hphase, hfreed]
    rfl

theorem meet (hphase : op.phase = .looking) (hpending : s.pending tag = some j) :
    Seats ((({ s with pending := s.pending.erase tag } : State).setOp j fun op =>
      { op with evictor := false, phase := .taken i }).setOp i fun op => { op with phase := .bridging j }) := by
  obtain ⟨partner, hpartner, -⟩ := h.found tag j hpending
  have hne := h.ne_of_pending hpending hop (by rw [hphase]; nofun)
  have htaken := h.unpark hpending (f := fun op => { op with evictor := false, phase := .taken i })
    (fun _ => rfl) (fun _ => rfl)
    (fun _ => .inl ⟨i, rfl⟩) fun _ he => he
  have hpartner' := State.setOp_self (f := fun op => { op with evictor := false, phase := .taken i }) hpartner
  refine htaken.looks ((State.setOp_ne _ hne).trans hop) hphase rfl rfl fun k hk => ?_
  obtain rfl : j = k := Phase.bridging.inj hk
  exact ⟨hne, _, hpartner', rfl⟩

theorem overwrite (hparking : op.phase = .parking) (hoptag : op.tag = some tag)
    (hf : ∀ op, (f op).conn = op.conn ∧ (f op).tag = op.tag ∧ (f op).phase = .parked ∧
      (f op).endpoint = op.endpoint) : Seats ((s.overwrite i tag).setOp i f) := by
  obtain ⟨hconn, htag, hphase, hendpoint⟩ := hf op
  unfold State.overwrite
  split
  · next j hpending =>
    have hne := h.ne_of_pending hpending hop (by rw [hparking]; nofun)
    have hout := h.unpark hpending (f := fun op => { op with phase := .gone (.overwritten i) }) (fun _ => rfl)
      (fun _ => rfl) (fun _ => .inr ⟨_, rfl⟩) fun _ he => he
    have hseated := hout.seat ((State.setOp_ne _ hne).trans hop) hparking hoptag hconn htag hphase hendpoint
    refine hseated.congr ?_ rfl
    show s.pending.insert tag i = (s.pending.erase tag).insert tag i
    simp [Table.insert, Table.erase]
  · exact h.seat hop hparking hoptag hconn htag hphase hendpoint

theorem settle (hbridging : op.phase = .bridging j) {g : Op → Op}
    (hf : ∀ op, (f op).conn = op.conn ∧ (f op).tag = op.tag) (hg : ∀ op, (g op).conn = op.conn ∧ (g op).tag = op.tag)
    (hcalm : ∀ op, (∀ k, (f op).phase ≠ .bridging k) ∧ (f op).phase.opening = false ∧
      (∀ k, (g op).phase ≠ .bridging k) ∧ (g op).phase.opening = false)
    (hfend : ∀ op : Op, op.endpoint = true → (f op).endpoint = !(f op).phase.freed)
    (hgend : op.conn.isSome = true → op.endpoint = true → (g op).endpoint = !(g op).phase.freed) :
    Seats ((s.setOp j f).setOp i g) := by
  obtain ⟨partner, hpartner, htaken⟩ := h.bridging i op j hop hbridging
  have hne : j ≠ i := by
    rintro rfl
    obtain rfl : op = partner := mem_unique hop hpartner
    rw [hbridging] at htaken
    contradiction
  have hheld : ∀ {k : Nat} {x : Op}, s.ops[k]? = some x → x.phase.freed = false →
    x.conn.isSome = true → x.endpoint = true := by
    intro k x hx hfreed hsome
    rw [h.endpoint k x hx hsome, hfreed]
    rfl
  -- the one that has taken the other goes first: it no longer needs it
  have hfirst : Seats (s.setOp i g) := by
    refine h.setOp hop ?_ ⟨(hg op).1, (hg op).2, fun k hk => absurd hk ((hcalm op).2.2.1 k), ?_,
      fun _ => (hcalm op).2.2.2, ?_⟩
    · intro hparked
      rw [hbridging] at hparked
      contradiction
    · intro k hk
      rw [hbridging] at hk
      contradiction
    · intro hsome
      exact hgend hsome (hheld hop (by rw [hbridging]; rfl) hsome)
  have hself := State.setOp_self (f := g) hop
  have hboth : Seats ((s.setOp i g).setOp j f) := by
    refine hfirst.setOp ((State.setOp_ne _ hne.symm).trans hpartner) ?_ ⟨(hf partner).1, (hf partner).2,
      fun k hk => absurd hk ((hcalm partner).1 k), ?_, fun _ => (hcalm partner).2.1, ?_⟩
    · intro hparked
      rw [htaken] at hparked
      contradiction
    · intro k hk
      right
      intro x hx
      rw [htaken, Phase.taken.injEq] at hk
      subst hk
      rw [hself, Option.some.injEq] at hx
      rw [← hx]
      exact (hcalm op).2.2.1 j
    · intro hsome
      exact hfend partner (hheld hpartner (by rw [htaken]; rfl) hsome)
  refine hboth.congr rfl ?_
  show (s.ops.modify j f).modify i g = (s.ops.modify i g).modify j f
  exact modify_modify_ne _ _ _ hne

end

theorem step {a : Action} (h : Seats s) (hsettles : s.Settles a) (hstep : s.step a = some s') : Seats s' := by
  have hopens : ∀ {i : Nat} {op : Op}, s.ops[i]? = some op →
    op.phase = .negotiating ∨ op.phase = .checking ∨ op.phase = .securing →
      op.phase.opening = true ∧ op.endpoint = true := by
    intro i op hop hphase
    have hopening : op.phase.opening = true := by
      obtain hphase | hphase | hphase := hphase <;> rw [hphase] <;> rfl
    exact ⟨hopening, (h.endpoint_of_opening hop hopening).2⟩
  cases State.moves_of_step hstep with
  | connect | init | turnDown | note | found | miss | removeNothing | other | close => exact h.congr rfl rfl
  | @offer c session =>
    let op : Op :=
      { conn := some c, session := some session, tag := s.sessions[session]?.bind SessionInfo.tag,
        phase := .negotiating }
    have hadded : Seats { s with ops := s.ops ++ [op] } := h.addOp (.inl rfl) nofun rfl
    exact hadded.congr rfl rfl
  | candidate =>
    have hlogged : ∀ c f, Seats (s.setConn c f) := fun _ _ => h.congr rfl rfl
    exact (hlogged _ _).setAgent _ fun _ => ⟨rfl, rfl, rfl, rfl⟩
  | @bye c session =>
    have hdropped := (h.cancelKeepalive session).removeAgent session fun _ => .dropped
    exact hdropped.congr (by simp) (by simp)
  | @remove c session tag i k hk htask hpending =>
    have hremoved := h.unpark hpending
      (f := fun op => { op with evictor := false, endpoint := false, phase := .gone (.bye session) }) (fun _ => rfl)
      (fun _ => rfl) (fun _ => .inr ⟨_, rfl⟩) fun _ _ => rfl
    exact hremoved.congr rfl rfl
  | rejected hop _ _ hphase => exact h.reject hop (hopens hop (.inl hphase)).1
  | withoutIce hop _ _ hphase =>
    obtain ⟨hopening, hheld⟩ := hopens hop (.inl hphase)
    exact h.advance hop hopening rfl rfl nofun hheld
  | brokenIce hop _ _ hphase => exact h.failChecks hop (hopens hop (.inl hphase)).1 _
  | @withIce i _ session remotes _ _ hop _ _ hphase =>
    obtain ⟨hopening, hheld⟩ := hopens hop (.inl hphase)
    exact (h.registerAgent i session remotes).advance
      (State.op_registerAgent hop session remotes) hopening rfl rfl nofun hheld
  | checked hop _ _ hphase =>
    obtain ⟨hopening, hheld⟩ := hopens hop (.inr (.inl hphase))
    have hset := h.advance hop hopening (f := fun op => { op with keepalive := true, phase := .securing }) rfl rfl nofun hheld
    exact hset.congr rfl rfl
  | unchecked hop _ _ hphase => exact h.failChecks hop (hopens hop (.inr (.inl hphase))).1 _
  | tagged hop hphase =>
    obtain ⟨hopening, hheld⟩ := hopens hop (.inr (.inr hphase))
    exact h.advance hop hopening rfl rfl nofun hheld
  | @single i _ hop hphase =>
    obtain ⟨hopening, hheld⟩ := hopens hop (.inr (.inr hphase))
    exact (h.advance hop hopening (f := fun op => { op with phase := .single }) rfl rfl nofun hheld).reply i _
  | unsecured hop hphase => exact h.reject hop (hopens hop (.inr (.inr hphase))).1
  | meet hop _ hphase hpending => exact h.meet hop hphase hpending
  | wait hop _ hphase => exact h.looks hop hphase rfl rfl nofun
  | @park i _ tag op hop htag hphase =>
    have hset := h.overwrite hop hphase htag (f := fun op => { op with phase := .parked, evictor := true })
      fun _ => ⟨rfl, rfl, rfl, rfl⟩
    exact hset.reply i _
  | parkDialog hop htag hphase =>
    have hset := h.overwrite hop hphase htag
      (f := fun op => { op with phase := .parked, evictor := true, session := some s.syntheticSession })
      fun _ => ⟨rfl, rfl, rfl, rfl⟩
    exact hset.congr rfl rfl
  | @bridge i j op partner hop hphase =>
    have hentered : Seats (((s.install i j).enter op.entered s.bridges.length).enter partner.session s.bridges.length) :=
      h.congr (by simp) (by simp)
    have hop' : (((s.install i j).enter op.entered s.bridges.length).enter partner.session s.bridges.length).ops[i]? =
        some op := by
      simp [hop]
    have hpaired := hentered.settle hop' hphase (f := fun op => { op with phase := .paired s.bridges.length })
      (g := fun op => { op with phase := .paired s.bridges.length }) (fun _ => ⟨rfl, rfl⟩) (fun _ => ⟨rfl, rfl⟩)
      (fun _ => ⟨nofun, rfl, nofun, rfl⟩) (fun _ he => he) fun _ he => he
    exact hpaired.reply i _
  | @strand i j op partner hop hphase =>
    have hstranded := h.settle hop hphase (f := fun op => { op with phase := .gone (.stranded i) })
      (g := fun op => { op with phase := .failed }) (fun _ => ⟨rfl, rfl⟩) (fun _ => ⟨rfl, rfl⟩)
      (fun _ => ⟨nofun, rfl, nofun, rfl⟩) (fun _ he => he) ?_
    · exact hstranded.reply i _
    · intro hsome
      rw [show op.conn = none from hsettles op hop] at hsome
      contradiction
  | @evict i j tag session op hop htag hsession hevictor hpending =>
    have hfired : Seats (s.setOp i fun op => { op with evictor := false }) := h.setAgent i fun _ => ⟨rfl, rfl, rfl, rfl⟩
    exact hfired.unpark hpending (f := fun op => { op with endpoint := false, phase := .gone (.deadline i) })
      (fun _ => rfl) (fun _ => rfl) (fun _ => .inr ⟨_, rfl⟩) fun _ _ => rfl
  | spare | stopKeepalive => exact h.setAgent _ fun _ => ⟨rfl, rfl, rfl, rfl⟩
  | @invite tag =>
    have hphase : ({ conn := none, session := none, tag := some tag, phase := .looking } : Op).phase = .looking := rfl
    exact h.addOp (.inr hphase) (fun _ => hphase) rfl
  | hangUp hop hdialog | endDialog hop hdialog =>
    have hended := h.setOp hop (f := fun op => { op with ended := true, endpoint := false }) id (.same h hop rfl rfl rfl ?_)
    · exact hended.congr rfl rfl
    · intro hsome
      rw [hdialog] at hsome
      contradiction

end Steps

end Seats

/-! ## agents -/

/-- Before the checks have ended, or after the offer has failed: no keepalive task. -/
def Phase.early : Phase → Bool
  | .negotiating | .checking | .failed => true
  | _ => false

/-- Before there is an agent, or after the offer has failed. -/
def Phase.bare : Phase → Bool
  | .negotiating | .failed => true
  | _ => false

/-- After the checks, and not for want of a bridge. -/
def Phase.still : Phase → Bool
  | .negotiating | .checking | .failed | .gone (.stranded _) => false
  | _ => true

variable {p : Phase}

theorem Phase.early_of_still (h : p.still = true) : p.early = false := by
  cases p <;> first | rfl | contradiction

theorem Phase.early_of_bare (h : p.bare = true) : p.early = true := by
  cases p <;> first | rfl | contradiction

/-- Which agents the map holds, and for whom others have left. -/
structure Agents (s : State) : Prop where
  held : ∀ (session : SessionId) (i : Nat), s.iceAgents session = some i →
    ∃ op : Op, s.ops[i]? = some op ∧ op.session = some session ∧ op.conn.isSome = true ∧ op.agent = .registered
  registered : ∀ (i : Nat) (op : Op), s.ops[i]? = some op → op.agent = .registered →
    ∃ session, op.session = some session ∧ s.iceAgents session = some i
  displaced : ∀ (i : Nat) (op : Op) (j : Nat), s.ops[i]? = some op → op.agent = .displaced j → j < s.ops.length
  stranded : ∀ (i : Nat) (op : Op) (j : Nat), s.ops[i]? = some op → op.phase = .gone (.stranded j) →
    ∃ x : Op, s.ops[j]? = some x ∧ x.conn = none
  unkept : ∀ (i : Nat) (op : Op), s.ops[i]? = some op → op.conn.isSome = true → op.phase.early = true →
    op.keepalive = false ∧ ∀ session, s.iceKeepalives session ≠ some i
  unbuilt : ∀ (i : Nat) (op : Op), s.ops[i]? = some op → op.conn.isSome = true → op.phase.bare = true →
    op.agent ≠ .registered ∧ ∀ op' ∈ s.ops, op'.agent ≠ .displaced i

namespace Agents

variable {s s' : State} {i j c : Nat} {op op' : Op} {session : SessionId}

theorem empty : Agents {} := by
  refine ⟨?_, ?_, ?_, ?_, ?_, ?_⟩
  all_goals
    intros
    simp_all

theorem congr (h : Agents s) (hops : s'.ops = s.ops) (hagents : s'.iceAgents = s.iceAgents)
    (hkeepalives : s'.iceKeepalives = s.iceKeepalives) : Agents s' := by
  obtain ⟨hheld, hregistered, hdisplaced, hstranded, hunkept, hunbuilt⟩ := h
  refine ⟨?_, ?_, ?_, ?_, ?_, ?_⟩
  · rwa [hops, hagents]
  · rwa [hops, hagents]
  · rwa [hops]
  · rwa [hops]
  · rwa [hops, hkeepalives]
  · rwa [hops]

/-- What an operation may become, and the maps with it. -/
structure Changes (s : State) (agents keepalives : Table SessionId Nat) (i : Nat) (op op' : Op) : Prop where
  conn : op'.conn = op.conn
  session : op.conn.isSome = true → op'.session = op.session
  held : ∀ own k, agents own = some k → s.iceAgents own = some k ∧ (i = k → op.session = some own → op'.agent = .registered) ∨
    i = k ∧ op.session = some own ∧ op.conn.isSome = true ∧ op'.agent = .registered
  others : ∀ own k, i ≠ k → s.iceAgents own = some k → agents own = some k
  registered : op'.agent = .registered → ∃ own, op'.session = some own ∧ agents own = some i
  displaced : ∀ j, op'.agent = .displaced j → op.agent = .displaced j ∨
    ∃ y : Op, s.ops[j]? = some y ∧ y.phase.bare = false ∧ (i = j → op'.phase.bare = false)
  keepalives : ∀ own k, keepalives own = some k → s.iceKeepalives own = some k ∨ i = k ∧ op'.phase.early = false
  stranded : ∀ j, op'.phase = .gone (.stranded j) → op.phase = .gone (.stranded j) ∨
    ∃ x : Op, s.ops[j]? = some x ∧ x.conn = none
  early : op.conn.isSome = true → op'.phase.early = true →
    (op'.keepalive = true → op.keepalive = true) ∧ (op.phase.early = true ∨
    (op.keepalive = false ∧ ∀ session, s.iceKeepalives session ≠ some i))
  bare : op.conn.isSome = true → op'.phase.bare = true → (op'.agent = .registered → op.agent = .registered) ∧
    (op.phase.bare = true ∨ (op.agent ≠ .registered ∧ ∀ x ∈ s.ops, x.agent ≠ .displaced i))

variable {f : Op → Op}

theorem change (h : Agents s) (hop : s.ops[i]? = some op) {agents keepalives : Table SessionId Nat}
    (hchanges : Changes s agents keepalives i op (f op)) :
    Agents { s.setOp i f with iceAgents := agents, iceKeepalives := keepalives } := by
  have hself := State.setOp_self (f := f) hop
  have hother : ∀ {k : Nat}, i ≠ k → (s.setOp i f).ops[k]? = s.ops[k]? := State.setOp_ne f
  have hlength : (s.setOp i f).ops.length = s.ops.length := by simp
  -- no agent leaves for an operation that has none
  have hblameless : ∀ {k : Nat} {y : Op}, s.ops[k]? = some y → y.phase.bare = true ∨ i = k ∧ (f op).phase.bare = true →
      (∀ x ∈ s.ops, x.agent ≠ .displaced k) → ∀ x ∈ (s.setOp i f).ops, x.agent ≠ .displaced k := by
    intro k y hy hbare hall x hx hdisplaced
    obtain ⟨m, hm⟩ := getElem?_of_mem hx
    obtain ⟨-, hold⟩ | ⟨rfl, rfl⟩ := State.slot_setOp hop hm
    · exact hall x (mem_of_getElem? hold) hdisplaced
    · obtain hwas | ⟨z, hz, hbuilt, hown⟩ := hchanges.displaced k hdisplaced
      · exact hall op (mem_of_getElem? hop) hwas
      · obtain rfl : y = z := mem_unique hy hz
        obtain hbare | ⟨hik, hbare⟩ := hbare
        · exact absurd (hbare.symm.trans hbuilt) nofun
        · exact absurd (hbare.symm.trans (hown hik)) nofun
  constructor
  · intro own k hk
    obtain ⟨hold, hregistered⟩ | ⟨rfl, hown, hsome, hregistered⟩ := hchanges.held own k hk
    · obtain ⟨x, hx, hsession, hsome, hwas⟩ := h.held own k hold
      by_cases hik : i = k
      · subst hik
        obtain rfl : op = x := mem_unique hop hx
        exact ⟨f op, hself, (hchanges.session hsome).trans hsession, hchanges.conn ▸ hsome, hregistered rfl hsession⟩
      · exact ⟨x, (hother hik).trans hx, hsession, hsome, hwas⟩
    · exact ⟨f op, hself, (hchanges.session hsome).trans hown, hchanges.conn ▸ hsome, hregistered⟩
  · intro k x hx hregistered
    obtain ⟨hik, hold⟩ | ⟨rfl, rfl⟩ := State.slot_setOp hop hx
    · obtain ⟨own, hown, hmap⟩ := h.registered k x hold hregistered
      exact ⟨own, hown, hchanges.others own k hik hmap⟩
    · exact hchanges.registered hregistered
  · intro k x m hx hdisplaced
    show m < (s.setOp i f).ops.length
    rw [hlength]
    obtain ⟨-, hold⟩ | ⟨rfl, rfl⟩ := State.slot_setOp hop hx
    · exact h.displaced k x m hold hdisplaced
    · obtain hwas | ⟨y, hy, -⟩ := hchanges.displaced m hdisplaced
      · exact h.displaced i op m hop hwas
      · exact (List.getElem?_eq_some_iff.mp hy).1
  · intro k x m hx hstranded
    have hpast : ∃ y : Op, s.ops[m]? = some y ∧ y.conn = none := by
      obtain ⟨-, hold⟩ | ⟨rfl, rfl⟩ := State.slot_setOp hop hx
      · exact h.stranded k x m hold hstranded
      · obtain hwas | hpast := hchanges.stranded m hstranded
        · exact h.stranded i op m hop hwas
        · exact hpast
    obtain ⟨y, hy, hnone⟩ := hpast
    by_cases him : i = m
    · subst him
      obtain rfl : op = y := mem_unique hop hy
      exact ⟨f op, hself, hchanges.conn.trans hnone⟩
    · exact ⟨y, (hother him).trans hy, hnone⟩
  · intro k x hx hsome hearly
    have hnone : ∀ {own : SessionId} {y : Op}, s.ops[k]? = some y → (i = k → (f op).phase.early = true) →
        s.iceKeepalives own ≠ some k → keepalives own ≠ some k := by
      intro own y _ hstill hnone hmap
      obtain hold | ⟨hik, hkept⟩ := hchanges.keepalives own k hmap
      · exact hnone hold
      · exact absurd ((hstill hik).symm.trans hkept) nofun
    obtain ⟨hik, hold⟩ | ⟨rfl, rfl⟩ := State.slot_setOp hop hx
    · obtain ⟨hkeepalive, hquiet⟩ := h.unkept k x hold hsome hearly
      exact ⟨hkeepalive, fun own => hnone hold (fun heq => absurd heq hik) (hquiet own)⟩
    · rw [hchanges.conn] at hsome
      obtain ⟨hkept, hwas⟩ := hchanges.early hsome hearly
      obtain ⟨hkeepalive, hquiet⟩ := hwas.elim (h.unkept i op hop hsome) id
      refine ⟨?_, fun own => hnone hop (fun _ => hearly) (hquiet own)⟩
      cases hnow : (f op).keepalive with
      | false => rfl
      | true => exact absurd (hkeepalive.symm.trans (hkept hnow)) nofun
  · intro k x hx hsome hbare
    obtain ⟨-, hold⟩ | ⟨rfl, rfl⟩ := State.slot_setOp hop hx
    · obtain ⟨hagent, hnobody⟩ := h.unbuilt k x hold hsome hbare
      exact ⟨hagent, hblameless hold (.inl hbare) hnobody⟩
    · rw [hchanges.conn] at hsome
      obtain ⟨hregistered, hwas⟩ := hchanges.bare hsome hbare
      obtain ⟨hagent, hnobody⟩ := hwas.elim (h.unbuilt i op hop hsome) id
      exact ⟨fun hnow => hagent (hregistered hnow), hblameless hop (.inr ⟨rfl, hbare⟩) hnobody⟩

/-- What an operation may become where the maps stay as they are. -/
structure Moves (s : State) (i : Nat) (op op' : Op) : Prop where
  conn : op'.conn = op.conn
  session : op.conn.isSome = true → op'.session = op.session
  agent : op'.agent = op.agent
  keepalive : op'.keepalive = true → op.keepalive = true
  stranded : ∀ j, op'.phase = .gone (.stranded j) → op.phase = .gone (.stranded j) ∨
    ∃ x : Op, s.ops[j]? = some x ∧ x.conn = none
  early : op.conn.isSome = true → op'.phase.early = true → op.phase.early = true ∨
    (op.keepalive = false ∧ ∀ session, s.iceKeepalives session ≠ some i)
  bare : op.conn.isSome = true → op'.phase.bare = true → op.phase.bare = true ∨
    (op.agent ≠ .registered ∧ ∀ x ∈ s.ops, x.agent ≠ .displaced i)

section

variable (h : Agents s)
include h

theorem of_held (hop : s.ops[i]? = some op) (hmap : s.iceAgents session = some i) :
    op.session = some session ∧ op.conn.isSome = true ∧ op.agent = .registered := by
  obtain ⟨x, hx, hrest⟩ := h.held session i hmap
  obtain rfl : op = x := mem_unique hop hx
  exact hrest

theorem setOp (hop : s.ops[i]? = some op) (hmoves : Moves s i op (f op)) : Agents (s.setOp i f) := by
  refine h.change hop ⟨hmoves.conn, hmoves.session, fun own k hk => .inl ⟨hk, ?_⟩, fun _ _ _ hk => hk, ?_,
    fun _ hj => .inl (hmoves.agent ▸ hj), fun _ _ hk => .inl hk, hmoves.stranded,
    fun hsome hearly => ⟨hmoves.keepalive, hmoves.early hsome hearly⟩,
    fun hsome hbare => ⟨fun hnow => hmoves.agent ▸ hnow, hmoves.bare hsome hbare⟩⟩
  · rintro rfl -
    exact hmoves.agent.trans (h.of_held hop hk).2.2
  · intro hregistered
    obtain ⟨own, hown, hmap⟩ := h.registered i op hop (hmoves.agent ▸ hregistered)
    exact ⟨own, (hmoves.session (h.of_held hop hmap).2.1).trans hown, hmap⟩

theorem addOp (howned : Owned s) (hphase : op.phase = .negotiating ∨ op.phase = .looking)
    (hagent : op.agent = .unbuilt) (hkeepalive : op.keepalive = false) : Agents { s with ops := s.ops ++ [op] } := by
  have hkept : ∀ {k : Nat} {x : Op}, s.ops[k]? = some x → (s.ops ++ [op])[k]? = some x := by
    intro k x hx
    rw [getElem?_append_left (List.getElem?_eq_some_iff.mp hx).1, hx]
  have hplain : ∀ j, op.phase ≠ .gone (.stranded j) := by
    obtain hphase | hphase := hphase <;> rw [hphase] <;> exact nofun
  have hat : ∀ {k : Nat}, (s.ops ++ [op])[k]? = some op → s.ops[k]? = some op ∨ k = s.ops.length := by
    intro k hk
    rw [getElem?_append] at hk
    split at hk
    · exact .inl hk
    · obtain ⟨hlt, -⟩ := List.getElem?_eq_some_iff.mp hk
      rw [length_singleton] at hlt
      exact .inr (by omega)
  have hnew : ∀ session, s.iceKeepalives session ≠ some s.ops.length := by
    intro session hmap
    obtain ⟨x, hx, -⟩ := howned.keepalives session _ hmap
    rw [getElem?_eq_none (Nat.le_refl _)] at hx
    contradiction
  have hblameless : ∀ x ∈ s.ops, x.agent ≠ .displaced s.ops.length := by
    intro x hx hdisplaced
    obtain ⟨k, hk⟩ := getElem?_of_mem hx
    exact absurd (h.displaced k x _ hk hdisplaced) (Nat.lt_irrefl _)
  have hsnoc : ∀ {m : Nat}, (∀ x ∈ s.ops, x.agent ≠ .displaced m) → ∀ x ∈ s.ops ++ [op], x.agent ≠ .displaced m := by
    intro m hall x hx
    obtain hx | hx := mem_append.mp hx
    · exact hall x hx
    · rw [mem_singleton.mp hx, hagent]
      exact nofun
  constructor
  · intro own k hk
    obtain ⟨x, hx, hrest⟩ := h.held own k hk
    exact ⟨x, hkept hx, hrest⟩
  · intro k x hx hregistered
    obtain hx | rfl := slot_append hx
    · exact h.registered k x hx hregistered
    · rw [hagent] at hregistered
      contradiction
  · intro k x m hx hdisplaced
    show m < (s.ops ++ [op]).length
    rw [length_append]
    obtain hx | rfl := slot_append hx
    · exact Nat.lt_add_right _ (h.displaced k x m hx hdisplaced)
    · rw [hagent] at hdisplaced
      contradiction
  · intro k x m hx hstranded
    obtain hx | rfl := slot_append hx
    · obtain ⟨y, hy, hnone⟩ := h.stranded k x m hx hstranded
      exact ⟨y, hkept hy, hnone⟩
    · exact absurd hstranded (hplain m)
  · intro k x hx hsome hearly
    obtain hold | rfl := slot_append hx
    · exact h.unkept k x hold hsome hearly
    · obtain hold | rfl := hat hx
      · exact h.unkept k x hold hsome hearly
      · exact ⟨hkeepalive, hnew⟩
  · intro k x hx hsome hbare
    obtain hold | rfl := slot_append hx
    · obtain ⟨hx, hnobody⟩ := h.unbuilt k x hold hsome hbare
      exact ⟨hx, hsnoc hnobody⟩
    · obtain hold | rfl := hat hx
      · obtain ⟨hx, hnobody⟩ := h.unbuilt k x hold hsome hbare
        exact ⟨hx, hsnoc hnobody⟩
      · refine ⟨?_, hsnoc hblameless⟩
        rw [hagent]
        exact nofun

theorem calm (k : Nat)
    (hsame : ∀ op : Op, s.ops[k]? = some op → (f op).conn = op.conn ∧ (op.conn.isSome = true → (f op).session = op.session) ∧
      (f op).agent = op.agent ∧ ((f op).keepalive = true → op.keepalive = true))
    (hphase : ∀ op : Op, (f op).phase = op.phase ∨ (f op).phase.still = true) : Agents (s.setOp k f) := by
  cases hk : s.ops[k]? with
  | some op =>
    obtain ⟨hconn, hsession, hagent, hkeepalive⟩ := hsame op hk
    refine h.setOp hk ⟨hconn, hsession, hagent, hkeepalive, ?_, ?_, ?_⟩
    · intro j hj
      obtain hkept | hcalm := hphase op
      · exact .inl (hkept.symm.trans hj)
      · rw [hj] at hcalm
        contradiction
    · intro _ hearly
      obtain hkept | hcalm := hphase op
      · exact .inl (hkept ▸ hearly)
      · exact absurd hearly (by simp [Phase.early_of_still hcalm])
    · intro _ hbare
      obtain hkept | hcalm := hphase op
      · exact .inl (hkept ▸ hbare)
      · have hearly := Phase.early_of_bare hbare
        exact absurd hearly (by simp [Phase.early_of_still hcalm])
  | none => exact h.congr (State.ops_setOp_none hk f) rfl rfl

theorem cancelKeepalive (session : SessionId) : Agents (s.cancelKeepalive session) := by
  unfold State.cancelKeepalive
  split
  · next k _ =>
    have hset : Agents (s.setOp k fun op => { op with keepalive := false }) :=
      h.calm k (fun _ _ => ⟨rfl, fun _ => rfl, rfl, nofun⟩) fun _ => .inl rfl
    refine ⟨hset.held, hset.registered, hset.displaced, hset.stranded, ?_, hset.unbuilt⟩
    intro i op hop hsome hearly
    obtain ⟨hkeepalive, hnone⟩ := hset.unkept i op hop hsome hearly
    exact ⟨hkeepalive, fun own hown => hnone own (Owned.erase_le _ session own i hown)⟩
  · exact h

theorem removeAgent (session : SessionId) {fate : Nat → AgentFate} (hfate : ∀ i, fate i ≠ .registered)
    (hblame : ∀ i j, s.iceAgents session = some i → fate i = .displaced j →
      ∃ op : Op, s.ops[j]? = some op ∧ op.phase.bare = false) : Agents (s.removeAgent session fate) := by
  unfold State.removeAgent
  split
  · next k hmap =>
    obtain ⟨occupant, hk, hsession, -, -⟩ := h.held session k hmap
    refine h.change hk ⟨rfl, fun _ => rfl, fun own i hi => .inl ?_, fun own i hki hi => ?_, fun hnow => absurd hnow (hfate k),
      fun j hj => .inr ?_, fun _ _ hi => .inl hi, fun _ hj => .inl hj, fun _ hearly => ⟨id, .inl hearly⟩,
      fun _ hbare => ⟨fun hnow => absurd hnow (hfate k), .inl hbare⟩⟩
    · rw [Table.erase_apply] at hi
      split at hi
      · contradiction
      · next hne => exact ⟨hi, fun _ hown => absurd (mem_unique hown hsession) hne⟩
    · rw [Table.erase_apply, if_neg, hi]
      rintro rfl
      exact hki (mem_unique hmap hi)
    · obtain ⟨y, hy, hbuilt⟩ := hblame k j hmap hj
      refine ⟨y, hy, hbuilt, ?_⟩
      rintro rfl
      obtain rfl : occupant = y := mem_unique hk hy
      exact hbuilt
  · exact h

theorem enter (hop : s.ops[i]? = some op) (hconn : op.conn.isSome = true) (hsession : op.session = some session)
    (hbuilt : op.phase.bare = false) (hfree : s.iceAgents session = none) (remotes : List String) :
    Agents { s.setOp i fun op => { op with agent := .registered, remotes := remotes } with
      iceAgents := s.iceAgents.insert session i } := by
  refine h.change hop ⟨rfl, fun _ => rfl, fun own k hk => ?_, fun own k _ hk => ?_,
    fun _ => ⟨session, hsession, Table.insert_self _ _ _⟩,
    nofun, fun _ _ hk => .inl hk, fun _ hj => .inl hj, fun _ hearly => ⟨id, .inl hearly⟩,
    fun _ hbare => absurd (hbare.symm.trans hbuilt) nofun⟩
  · obtain hold | ⟨rfl, rfl⟩ := Owned.insert_le hk
    · exact .inl ⟨hold, fun _ _ => rfl⟩
    · exact .inr ⟨rfl, hsession, hconn, rfl⟩
  · rw [Table.insert_apply, if_neg, hk]
    rintro rfl
    rw [hfree] at hk
    contradiction

theorem keep (hop : s.ops[i]? = some op) (hchecked : op.phase.early = false) (session : SessionId) :
    Agents { s.setOp i fun op => { op with keepalive := true } with iceKeepalives := s.iceKeepalives.insert session i } := by
  refine h.change hop ⟨rfl, fun _ => rfl, fun own k hk => .inl ⟨hk, ?_⟩, fun _ _ _ hk => hk, h.registered i op hop,
    fun _ hj => .inl hj, fun own k hk => ?_, fun _ hj => .inl hj, fun _ hearly => absurd (hearly.symm.trans hchecked) nofun,
    fun _ hbare => ⟨id, .inl hbare⟩⟩
  · rintro rfl -
    exact (h.of_held hop hk).2.2
  · obtain hold | ⟨-, rfl⟩ := Owned.insert_le hk
    · exact .inl hold
    · exact .inr ⟨rfl, hchecked⟩

end

section Steps

theorem reply (h : Agents s) (i : Nat) (r : Reply) : Agents (s.reply i r) := h.congr (by simp) (by simp) (by simp)

theorem reject (h : Agents s) (hop : s.ops[i]? = some op)
    (hearly : op.conn.isSome = true →
      op.phase.early = true ∨ op.keepalive = false ∧ ∀ session, s.iceKeepalives session ≠ some i)
    (hbare : op.conn.isSome = true → op.phase.bare = true ∨ op.agent ≠ .registered ∧ ∀ x ∈ s.ops, x.agent ≠ .displaced i) :
    Agents (s.reject i) := by
  have hset : Agents (s.setOp i fun op => { op with phase := .failed, endpoint := false }) :=
    h.setOp hop ⟨rfl, fun _ => rfl, rfl, id, nofun, fun hsome _ => hearly hsome, fun hsome _ => hbare hsome⟩
  exact hset.reply i _

theorem removeAgent_none (hnone : s.iceAgents session = none) (fate : Nat → AgentFate) : s.removeAgent session fate = s := by
  unfold State.removeAgent
  rw [hnone]

theorem failChecks (h : Agents s) (hop : s.ops[i]? = some op) (hsession : op.session = some session)
    (hphase : op.phase.early = true)
    (hown : ∀ j ∈ s.iceAgents session, j = i) (hnobody : ∀ x ∈ s.ops, x.agent ≠ .displaced i) :
      Agents (s.failChecks i session) := by
  unfold State.failChecks
  cases hmap : s.iceAgents session with
  | none =>
    rw [removeAgent_none hmap]
    refine h.reject hop (fun _ => .inl hphase) fun _ => .inr ⟨?_, hnobody⟩
    intro hregistered
    obtain ⟨own, heq, hi⟩ := h.registered i op hop hregistered
    obtain rfl : session = own := mem_unique hsession heq
    rw [hmap] at hi
    contradiction
  | some j =>
    obtain rfl := hown j hmap
    have hremoved : Agents (s.removeAgent session fun k => if k = j then .dropped else .displaced j) := by
      refine h.removeAgent session ?_ ?_
      · intro k
        split <;> exact nofun
      · intro k m hk hdisplaced
        obtain rfl : j = k := mem_unique hmap hk
        rw [if_pos rfl] at hdisplaced
        contradiction
    have hops : (s.removeAgent session fun k => if k = j then .dropped else .displaced j).ops =
        s.ops.modify j fun op => { op with agent := .dropped } := by
      unfold State.removeAgent
      rw [hmap]
      simp
    have hdropped : (s.removeAgent session fun k => if k = j then .dropped else .displaced j).ops[j]? =
        some { op with agent := .dropped } := by
      rw [hops]
      simp [hop]
    refine hremoved.reject hdropped (fun _ => .inl hphase) fun _ => .inr ⟨nofun, ?_⟩
    rw [hops]
    intro x hx hdisplaced
    obtain ⟨n, hn⟩ := getElem?_of_mem hx
    obtain ⟨-, hold⟩ | ⟨rfl, rfl⟩ := State.slot_setOp hop hn
    · exact hnobody x (mem_of_getElem? hold) hdisplaced
    · contradiction

theorem registerAgent_eq (i : Nat) (session : SessionId) (remotes : List String) :
    s.registerAgent i session remotes =
      { (s.removeAgent session fun _ => .displaced i).setOp i fun op =>
        { op with agent := .registered, remotes := remotes } with
        iceAgents := (s.removeAgent session fun _ => .displaced i).iceAgents.insert session i } := by
  unfold State.registerAgent State.removeAgent
  split
  · simp only [State.setOp_frame, Table.insert, Table.erase, Function.update_idem]
  · rfl

theorem registerAgent_setOp (i : Nat) (session : SessionId) (remotes : List String) (dtls : Bool) (phase : Phase) :
    (s.registerAgent i session remotes).setOp i (fun op => { op with dtls := dtls, phase := phase }) =
      (s.setOp i fun op => { op with dtls := dtls, phase := phase }).registerAgent i session remotes := by
  have hlast : ∀ ops : List Op, (ops.modify i fun op => { op with agent := .registered, remotes := remotes }).modify i
      (fun op => { op with dtls := dtls, phase := phase }) =
      (ops.modify i fun op => { op with dtls := dtls, phase := phase }).modify i
        (fun op => { op with agent := .registered, remotes := remotes }) := by
    intro ops
    rw [modify_modify_eq, modify_modify_eq]
    rfl
  have hfirst : ∀ (ops : List Op) (j : Nat), (ops.modify j fun op => { op with agent := .displaced i }).modify i
      (fun op => { op with dtls := dtls, phase := phase }) =
      (ops.modify i fun op => { op with dtls := dtls, phase := phase }).modify j
        (fun op => { op with agent := .displaced i }) := by
    intro ops j
    by_cases hji : j = i
    · subst hji
      rw [modify_modify_eq, modify_modify_eq]
      rfl
    · exact modify_modify_ne _ _ _ hji
  unfold State.registerAgent
  simp only [State.setOp_frame]
  split <;> simp only [State.setOp, hlast, hfirst]

theorem overwrite (h : Agents s) (i : Nat) (tag : String) : Agents (s.overwrite i tag) := by
  unfold State.overwrite
  split
  · next j _ =>
    have hout : Agents (s.setOp j fun op => { op with phase := .gone (.overwritten i) }) :=
      h.calm j (fun _ _ => ⟨rfl, fun _ => rfl, rfl, id⟩) fun _ => .inr rfl
    exact hout.congr rfl rfl rfl
  · exact h.congr rfl rfl rfl

theorem withIce (h : Agents s) (hop : s.ops[i]? = some op) (hconn : op.conn.isSome = true)
    (hsession : op.session = some session)
    (hbare : op.phase.bare = true) (remotes : List String) (dtls : Bool) :
    Agents ((s.registerAgent i session remotes).setOp i fun op => { op with dtls := dtls, phase := .checking }) := by
  rw [registerAgent_setOp, registerAgent_eq]
  let f : Op → Op := fun op => { op with dtls := dtls, phase := .checking }
  have hchecking : Agents (s.setOp i f) :=
    h.setOp hop ⟨rfl, fun _ => rfl, rfl, id, nofun, fun _ _ => .inl (Phase.early_of_bare hbare), nofun⟩
  have hop' : (s.setOp i f).ops[i]? = some (f op) := State.setOp_self hop
  have hdisplaced : Agents ((s.setOp i f).removeAgent session fun _ => .displaced i) := by
    refine hchecking.removeAgent session (fun _ => nofun) ?_
    intro k j _ hj
    obtain rfl := AgentFate.displaced.inj hj
    exact ⟨f op, hop', rfl⟩
  obtain ⟨agent, hop''⟩ := State.op_removeAgent hop' session fun _ => .displaced i
  refine hdisplaced.enter hop'' hconn hsession rfl ?_ remotes
  simp [Table.erase_apply]

theorem step {a : Action} (h : Agents s) (howned : Owned s) (hsettles : s.Settles a) (hstep : s.step a = some s') :
    Agents s' := by
  -- most steps leave agents and keepalive tasks alone
  have hcalm : ∀ {s₁ : State} (_ : Agents s₁) (k : Nat) {f : Op → Op}, (∀ op : Op, (f op).conn = op.conn ∧
      (f op).session = op.session ∧ (f op).agent = op.agent ∧ (f op).keepalive = op.keepalive) →
      (∀ op : Op, (f op).phase = op.phase ∨ (f op).phase.still = true) → Agents (s₁.setOp k f) :=
    fun h₁ k f hf hphase => h₁.calm k (fun op _ =>
      ⟨(hf op).1, fun _ => (hf op).2.1, (hf op).2.2.1, fun hk => (hf op).2.2.2 ▸ hk⟩) hphase
  have hsome : ∀ {op : Op} {c : Nat}, op.conn = some c → op.conn.isSome = true := fun hconn => by rw [hconn]; rfl
  cases State.moves_of_step hstep with
  | connect | init | turnDown | note | found | miss | removeNothing | other | close => exact h.congr rfl rfl rfl
  | @offer c session =>
    let op : Op :=
      { conn := some c, session := some session, tag := s.sessions[session]?.bind SessionInfo.tag,
        phase := .negotiating }
    have hadded : Agents { s with ops := s.ops ++ [op] } := h.addOp howned (.inl rfl) rfl rfl
    exact hadded.congr rfl rfl rfl
  | candidate =>
    have hlogged : ∀ c f, Agents (s.setConn c f) := fun _ _ => h.congr rfl rfl rfl
    exact hcalm (hlogged _ _) _ (fun _ => ⟨rfl, rfl, rfl, rfl⟩) fun _ => .inl rfl
  | @bye c session =>
    have hdropped := (h.cancelKeepalive session).removeAgent session
      (show ∀ _ : Nat, AgentFate.dropped ≠ .registered by rintro _ ⟨⟩) (by rintro _ _ _ ⟨⟩)
    exact hdropped.congr (by simp) (by simp) (by simp)
  | @remove c session tag i =>
    have hremoved := hcalm h i (f := fun op => { op with evictor := false, endpoint := false, phase := .gone (.bye session) })
      (fun _ => ⟨rfl, rfl, rfl, rfl⟩) fun _ => .inr rfl
    exact hremoved.congr rfl rfl rfl
  | @rejected i c session op hop _ _ hphase =>
    have hbare : op.phase.bare = true := by rw [hphase]; rfl
    exact h.reject hop (fun _ => .inl (Phase.early_of_bare hbare)) fun _ => .inl hbare
  | withoutIce | tagged | wait => exact hcalm h _ (fun _ => ⟨rfl, rfl, rfl, rfl⟩) fun _ => .inr rfl
  | @brokenIce i c session _ op hop hconn hsession hphase =>
    have hbare : op.phase.bare = true := by rw [hphase]; rfl
    have hfree : s.iceAgents session = none := hsettles op hop session hsession
    refine h.failChecks hop hsession (Phase.early_of_bare hbare) ?_ (h.unbuilt i op hop (hsome hconn) hbare).2
    intro j hj
    rw [hfree] at hj
    contradiction
  | withIce hop hconn hsession hphase => exact h.withIce hop (hsome hconn) hsession (by rw [hphase]; rfl) _ _
  | @checked i c session op hop =>
    have hsecuring : Agents (s.setOp i fun op => { op with phase := .securing }) :=
      hcalm h i (fun _ => ⟨rfl, rfl, rfl, rfl⟩) fun _ => .inr rfl
    have hkept := hsecuring.keep (State.setOp_self hop) rfl session
    refine hkept.congr ?_ rfl rfl
    show s.ops.modify i _ = (s.ops.modify i _).modify i _
    rw [modify_modify_eq]
    rfl
  | @unchecked i c session op hop _ hsession hphase =>
    obtain ⟨hown, hnobody⟩ := hsettles op hop session hsession
    exact h.failChecks hop hsession (by rw [hphase]; rfl) hown hnobody
  | @single i =>
    have hsingle : Agents (s.setOp i fun op => { op with phase := .single }) :=
      hcalm h i (fun _ => ⟨rfl, rfl, rfl, rfl⟩) fun _ => .inr rfl
    exact hsingle.reply i _
  | @unsecured i op hop =>
    obtain ⟨hagent, hkeepalive, hnone, hnobody⟩ := hsettles op hop
    refine h.reject hop (fun _ => .inr ⟨hkeepalive, ?_⟩) fun _ => .inr ⟨hagent, hnobody⟩
    intro session hmap
    obtain ⟨x, hx, hsession, -⟩ := howned.keepalives session i hmap
    obtain rfl : op = x := mem_unique hop hx
    exact hnone session hsession hmap
  | @meet i j =>
    have htaken : Agents (s.setOp j fun op => { op with evictor := false, phase := .taken i }) :=
      hcalm h j (fun _ => ⟨rfl, rfl, rfl, rfl⟩) fun _ => .inr rfl
    have hbridging := hcalm htaken i (f := fun op => { op with phase := .bridging j }) (fun _ => ⟨rfl, rfl, rfl, rfl⟩)
      fun _ => .inr rfl
    exact hbridging.congr rfl rfl rfl
  | @park i _ tag =>
    have hparked := hcalm (h.overwrite i tag) i (f := fun op => { op with phase := .parked, evictor := true })
      (fun _ => ⟨rfl, rfl, rfl, rfl⟩) fun _ => .inr rfl
    exact hparked.reply i _
  | @parkDialog i tag op hop _ _ hnone =>
    have hconn : ∀ x : Op, (s.overwrite i tag).ops[i]? = some x → x.conn = none := by
      intro x hx
      unfold State.overwrite at hx
      split at hx
      · obtain ⟨y, hy, rfl⟩ := slot_modify hx
        obtain rfl : op = y := mem_unique hop hy
        split <;> exact hnone
      · obtain rfl : op = x := mem_unique hop hx
        exact hnone
    have hparked := (h.overwrite i tag).calm i
      (f := fun op => { op with phase := .parked, evictor := true, session := some s.syntheticSession })
      (fun x hx => ⟨rfl, fun hsome => by rw [hconn x hx] at hsome; contradiction, rfl, id⟩) fun _ => .inr rfl
    exact hparked.congr rfl rfl rfl
  | @bridge i j op partner =>
    have hentered : Agents (((s.install i j).enter op.entered s.bridges.length).enter partner.session s.bridges.length) :=
      h.congr (by simp) (by simp) (by simp)
    have hother := hcalm hentered j (f := fun op => { op with phase := .paired s.bridges.length })
      (fun _ => ⟨rfl, rfl, rfl, rfl⟩) fun _ => .inr rfl
    have hpaired := hcalm hother i (f := fun op => { op with phase := .paired s.bridges.length })
      (fun _ => ⟨rfl, rfl, rfl, rfl⟩) fun _ => .inr rfl
    exact hpaired.reply i _
  | @strand i j op partner hop _ hpartner =>
    have hdialog : op.conn = none := hsettles op hop
    have hstranded : Agents (s.setOp j fun op => { op with phase := .gone (.stranded i) }) := by
      refine h.setOp hpartner ⟨rfl, fun _ => rfl, rfl, id, ?_, by rintro _ ⟨⟩, by rintro _ ⟨⟩⟩
      intro m hm
      obtain rfl := Departure.stranded.inj (Phase.gone.inj hm)
      exact .inr ⟨op, hop, hdialog⟩
    obtain ⟨x, hx, hnone⟩ : ∃ x : Op, (s.setOp j fun op => { op with phase := .gone (.stranded i) }).ops[i]? = some x ∧
        x.conn = none := by
      by_cases hji : j = i
      · subst hji
        exact ⟨_, State.setOp_self hop, hdialog⟩
      · exact ⟨op, (State.setOp_ne _ hji).trans hop, hdialog⟩
    have hnobody : x.conn.isSome ≠ true := by
      rw [hnone]
      rintro ⟨⟩
    have hfailed := hstranded.setOp hx (f := fun op => { op with phase := .failed })
      ⟨rfl, fun _ => rfl, rfl, id, by rintro _ ⟨⟩, fun hsome => absurd hsome hnobody, fun hsome => absurd hsome hnobody⟩
    exact hfailed.reply i _
  | @evict i j =>
    have hfired : Agents (s.setOp i fun op => { op with evictor := false }) :=
      hcalm h i (fun _ => ⟨rfl, rfl, rfl, rfl⟩) fun _ => .inl rfl
    have hout := hcalm hfired j (f := fun op => { op with endpoint := false, phase := .gone (.deadline i) })
      (fun _ => ⟨rfl, rfl, rfl, rfl⟩) fun _ => .inr rfl
    exact hout.congr rfl rfl rfl
  | stopKeepalive => exact h.calm _ (fun _ _ => ⟨rfl, fun _ => rfl, rfl, by rintro ⟨⟩⟩) fun _ => .inl rfl
  | @invite tag =>
    have hphase : ({ conn := none, session := none, tag := some tag, phase := .looking } : Op).phase = .looking := rfl
    exact h.addOp howned (.inr hphase) rfl rfl
  | spare | endDialog => exact hcalm h _ (fun _ => ⟨rfl, rfl, rfl, rfl⟩) fun _ => .inl rfl
  | @hangUp i =>
    have hended := hcalm h i (f := fun op => { op with ended := true, endpoint := false }) (fun _ => ⟨rfl, rfl, rfl, rfl⟩)
      fun _ => .inl rfl
    exact hended.congr rfl rfl rfl

end Steps

end Agents

/-! ## connections that have ended -/

/-- Offers of connections that have ended hold nothing. -/
def Quits (s : State) : Prop :=
  ∀ (c : Nat) (k : Conn), s.conns[c]? = some k → k.over = true → ∀ op ∈ s.ops, op.conn = some c → op.spent = true

/-- No operation that holds nothing gets anything again, and no connection ends. -/
structure Keeps (s s' : State) : Prop where
  ops : ∀ op' ∈ s'.ops, op'.conn = none ∨ ∃ op ∈ s.ops, op'.conn = op.conn ∧ (op.spent = true → op'.spent = true)
  finished : ∀ (c : Nat) (k' : Conn), s'.conns[c]? = some k' → k'.over = true → ∃ k :
    Conn, s.conns[c]? = some k ∧ k.over = true

namespace Keeps

variable {s s' s'' : State} {i c : Nat} {op : Op}

theorem congr (hops : s'.ops = s.ops) (hconns : s'.conns = s.conns) : Keeps s s' := by
  refine ⟨?_, ?_⟩
  · rw [hops]
    exact fun op hop => .inr ⟨op, hop, rfl, id⟩
  · rw [hconns]
    exact fun c k hk hover => ⟨k, hk, hover⟩

theorem trans (h : Keeps s s') (h' : Keeps s' s'') : Keeps s s'' := by
  constructor
  · intro op'' hop''
    obtain hnone | ⟨op', hop', hconn', hspent'⟩ := h'.ops op'' hop''
    · exact .inl hnone
    · obtain hnone | ⟨op, hop, hconn, hspent⟩ := h.ops op' hop'
      · exact .inl (hconn'.trans hnone)
      · exact .inr ⟨op, hop, hconn'.trans hconn, fun hs => hspent' (hspent hs)⟩
  · intro c k'' hk'' hover''
    obtain ⟨k', hk', hover'⟩ := h'.finished c k'' hk'' hover''
    exact h.finished c k' hk' hover'

variable {f : Op → Op}

theorem setOp (i : Nat) (hf : ∀ op, s.ops[i]? = some op → (f op).conn = op.conn ∧
    (op.spent = true → (f op).spent = true)) : Keeps s (s.setOp i f) := by
  refine ⟨?_, fun c k hk hover => ⟨k, hk, hover⟩⟩
  intro op' hop'
  obtain ⟨m, hm⟩ := getElem?_of_mem hop'
  obtain ⟨op, hop, rfl⟩ := slot_modify hm
  right
  refine ⟨op, mem_of_getElem? hop, ?_⟩
  split
  · next him =>
    subst him
    exact hf op hop
  · exact ⟨rfl, id⟩

theorem setOp_of_holding (hop : s.ops[i]? = some op) (hholds : op.phase.freed = false)
    (hconn : ∀ op, (f op).conn = op.conn) : Keeps s (s.setOp i f) := by
  apply setOp
  intro x hx
  obtain rfl : op = x := mem_unique hop hx
  refine ⟨hconn op, ?_⟩
  intro hspent
  rw [Op.spent, hholds] at hspent
  contradiction

theorem setConn (c : Nat) {f : Conn → Conn} (hf : ∀ k, (f k).over = true → k.over = true) : Keeps s (s.setConn c f) := by
  refine ⟨fun op hop => .inr ⟨op, hop, rfl, id⟩, ?_⟩
  intro d k' hk' hover
  obtain ⟨k, hk, rfl⟩ := slot_modify hk'
  refine ⟨k, hk, ?_⟩
  split at hover
  · exact hf k hover
  · exact hover

theorem reply (i : Nat) (r : Reply) : Keeps s (s.reply i r) := by
  unfold State.reply
  split
  · exact setConn _ fun _ hover => hover
  · exact .congr rfl rfl

theorem removeAgent (session : SessionId) {fate : Nat → AgentFate} (hfate : ∀ i, fate i ≠ .registered) :
    Keeps s (s.removeAgent session fate) := by
  unfold State.removeAgent
  split
  · next k _ =>
    have hset : Keeps s (s.setOp k fun op => { op with agent := fate k }) := by
      apply setOp
      intro op _
      refine ⟨rfl, ?_⟩
      intro hspent
      simp only [Op.spent, Bool.and_eq_true, decide_eq_true_eq] at hspent ⊢
      exact ⟨⟨hspent.1.1, hfate k⟩, hspent.2⟩
    exact hset.trans (.congr rfl rfl)
  · exact .congr rfl rfl

theorem cancelKeepalive (session : SessionId) : Keeps s (s.cancelKeepalive session) := by
  unfold State.cancelKeepalive
  split
  · next k _ =>
    have hset : Keeps s (s.setOp k fun op => { op with keepalive := false }) := by
      apply setOp
      intro op _
      refine ⟨rfl, ?_⟩
      intro hspent
      simp only [Op.spent, Bool.and_eq_true] at hspent ⊢
      exact ⟨hspent.1, rfl⟩
    exact hset.trans (.congr rfl rfl)
  · exact .congr rfl rfl

theorem quits (h : Keeps s s') (hquits : Quits s) : Quits s' := by
  intro c k' hk' hover' op' hop' hconn'
  obtain ⟨k, hk, hover⟩ := h.finished c k' hk' hover'
  obtain hnone | ⟨op, hop, hconn, hspent⟩ := h.ops op' hop'
  · rw [hnone] at hconn'
    contradiction
  · exact hspent (hquits c k hk hover op hop (hconn.symm.trans hconn'))

theorem reject (hop : s.ops[i]? = some op) (hholds : op.phase.freed = false) : Keeps s (s.reject i) := by
  have hset : Keeps s (s.setOp i fun op => { op with phase := .failed, endpoint := false }) :=
    setOp_of_holding hop hholds fun _ => rfl
  exact hset.trans (.reply i _)

theorem failChecks (hop : s.ops[i]? = some op) (hholds : op.phase.freed = false) (session : SessionId) :
    Keeps s (s.failChecks i session) := by
  obtain ⟨agent, hop'⟩ := State.op_removeAgent hop session fun j => if j = i then .dropped else .displaced i
  have hremoved : Keeps s (s.removeAgent session fun j => if j = i then .dropped else .displaced i) := by
    refine .removeAgent session ?_
    intro j
    split <;> exact nofun
  exact hremoved.trans (.reject hop' hholds)

section Steps

variable {f : Op → Op}

theorem unpark (h : Seats s) {tag : String} (hpending : s.pending tag = some i) (hconn : ∀ op, (f op).conn = op.conn) :
    Keeps s (s.setOp i f) := by
  obtain ⟨op, hop, -, hparked⟩ := h.found tag i hpending
  refine setOp_of_holding hop ?_ hconn
  rw [hparked]
  rfl

theorem withIce (hop : s.ops[i]? = some op) (hholds : op.phase.freed = false) (session : SessionId) (remotes : List String)
    (dtls : Bool) : Keeps s ((s.registerAgent i session remotes).setOp i fun op =>
      { op with dtls := dtls, phase := .checking }) := by
  rw [Agents.registerAgent_setOp, Agents.registerAgent_eq]
  have hchecking : Keeps s (s.setOp i fun op => { op with dtls := dtls, phase := .checking }) :=
    setOp_of_holding hop hholds fun _ => rfl
  have hop' := State.setOp_self (f := fun op => { op with dtls := dtls, phase := .checking }) hop
  obtain ⟨agent, hop''⟩ := State.op_removeAgent hop' session fun _ => .displaced i
  have hremoved := hchecking.trans (.removeAgent session fun _ => (nofun : AgentFate.displaced i ≠ .registered))
  have hregistered := hremoved.trans
    (setOp_of_holding hop'' rfl (f := fun op => { op with agent := .registered, remotes := remotes }) fun _ => rfl)
  exact hregistered.trans (.congr rfl rfl)

theorem overwrite (h : Seats s) (hop : s.ops[i]? = some op) (hphase : op.phase = .parking) (tag : String)
    (hconn : ∀ op, (f op).conn = op.conn) : Keeps s ((s.overwrite i tag).setOp i f) := by
  have hholds : op.phase.freed = false := by rw [hphase]; rfl
  unfold State.overwrite
  split
  · next j hpending =>
    have hne := h.ne_of_pending hpending hop (by rw [hphase]; nofun)
    have hout : Keeps s (s.setOp j fun op => { op with phase := .gone (.overwritten i) }) :=
      unpark h hpending fun _ => rfl
    have hboth := hout.trans (setOp_of_holding ((State.setOp_ne _ hne).trans hop) hholds hconn)
    exact hboth.trans (.congr rfl rfl)
  · have hset : Keeps s (s.setOp i f) := setOp_of_holding hop hholds hconn
    exact hset.trans (.congr rfl rfl)

theorem settle (h : Seats s) {j : Nat} (hop : s.ops[i]? = some op) (hbridging : op.phase = .bridging j) {g : Op → Op}
    (hf : ∀ op, (f op).conn = op.conn) (hg : ∀ op, (g op).conn = op.conn) : Keeps s ((s.setOp j f).setOp i g) := by
  obtain ⟨partner, hpartner, htaken⟩ := h.bridging i op j hop hbridging
  have hne : j ≠ i := by
    rintro rfl
    obtain rfl : op = partner := mem_unique hop hpartner
    rw [hbridging] at htaken
    contradiction
  have hfirst : Keeps s (s.setOp j f) := by
    refine setOp_of_holding hpartner ?_ hf
    rw [htaken]
    rfl
  have hop' : (s.setOp j f).ops[i]? = some op := (State.setOp_ne f hne).trans hop
  refine hfirst.trans (setOp_of_holding hop' ?_ hg)
  rw [hbridging]
  rfl

end Steps

end Keeps

namespace Quits

variable {s s' : State} {c : Nat}

theorem empty : Quits {} := by
  intro c k hk
  rw [getElem?_nil] at hk
  contradiction

variable {k : Conn} {f : Conn → Conn} {i : Nat} {op : Op} {session : SessionId} {tag : String}

theorem setConn (h : Quits s) (hf : ∀ k, s.conns[c]? = some k → (f k).over = true →
    k.over = true ∨ ∀ op ∈ s.ops, op.conn = some c → op.spent = true) : Quits (s.setConn c f) := by
  intro d k' hk' hover op hop hconn
  obtain ⟨k, hk, rfl⟩ := slot_modify hk'
  split at hover
  · next hcd =>
    subst hcd
    obtain hwas | hspent := hf k hk hover
    · exact h c k hk hwas op hop hconn
    · exact hspent op hop hconn
  · exact h d k hk hover op hop hconn

theorem addOp (h : Quits s) (hidle : s.idle c = some k) (hown : op.conn = some c)
    (hf : ∀ k, (f k).closed = k.closed ∧ (f k).hungUp = false) :
    Quits (({ s with ops := s.ops ++ [op] } : State).setConn c f) := by
  obtain ⟨hk, hopen, -⟩ := State.of_idle hidle
  intro d k' hk' hover op' hop hconn
  obtain ⟨x, hx, rfl⟩ := slot_modify hk'
  split at hover
  · next hcd =>
    subst hcd
    obtain rfl : k = x := mem_unique hk hx
    simp [Conn.over, hf, hopen] at hover
  · next hcd =>
    obtain hop | hop := mem_append.mp hop
    · exact h d x hx hover op' hop hconn
    · obtain rfl := mem_singleton.mp hop
      exact absurd (mem_unique hown hconn) hcd

theorem byeDone (h : Quits s) (session : SessionId) (hspent : ∀ k, s.conns[c]? = some k → k.session = some session →
    ∀ op ∈ s.ops, op.conn = some c → op.spent = true) : Quits (s.byeDone c session) := by
  refine h.setConn ?_
  intro k hk hover
  by_cases hown : k.session = some session
  · exact .inr (hspent k hk hown)
  · left
    have hclosed : k.closed = true := by simpa [Conn.over, hown] using hover
    rw [Conn.over, hclosed]
    rfl

theorem of_removing (hsettles : s.Settles (.remove c)) (hk : s.conns[c]? = some k)
    (htask : k.task = some (.removing session tag)) (hown : k.session = some session)
    (hop : s.ops[i]? = some op) (hconn : op.conn = some c) :
    op.spent = true ∨ (s.pending tag = some i ∧ op.agent ≠ .registered ∧ op.keepalive = false) := by
  have hremoved : s.removed c = s.pending tag := by
    simp [State.removed, hk, htask]
  have hquitting : s.quitting c = true := by
    simp [State.quitting, hk, htask, hown]
  rw [← hremoved]
  exact hsettles hquitting i (List.getElem?_eq_some_iff.mp hop).1 op hop hconn

theorem remove (h : Quits s) (hseats : Seats s) (hsettles : s.Settles (.remove c)) (hk : s.conns[c]? = some k)
    (htask : k.task = some (.removing session tag)) (hpending : s.pending tag = some i) :
    Quits ((({ s with pending := s.pending.erase tag } : State).setOp i fun op =>
      { op with evictor := false, endpoint := false, phase := .gone (.bye session) }).byeDone c session) := by
  let f : Op → Op := fun op => { op with evictor := false, endpoint := false, phase := .gone (.bye session) }
  have hout : Keeps s (({ s with pending := s.pending.erase tag } : State).setOp i f) :=
    (Keeps.unpark hseats hpending (f := f) fun _ => rfl).trans (.congr rfl rfl)
  refine (hout.quits h).byeDone session ?_
  intro x hx hown op hop hconn
  obtain rfl : k = x := mem_unique hk hx
  obtain ⟨m, hm⟩ := getElem?_of_mem hop
  obtain ⟨op, hold, rfl⟩ := slot_modify hm
  split
  · next him =>
    rw [if_pos him] at hconn
    subst him
    obtain hspent | ⟨-, hagent, hkeepalive⟩ := of_removing hsettles hk htask hown hold hconn
    · simp only [Op.spent, Bool.and_eq_true] at hspent
      simp [f, Op.spent, Phase.freed, hspent]
    · simp [f, Op.spent, Phase.freed, hagent, hkeepalive]
  · next him =>
    rw [if_neg him] at hconn
    obtain hspent | ⟨hmap, -⟩ := of_removing hsettles hk htask hown hold hconn
    · exact hspent
    · exact absurd (mem_unique hpending hmap) him

theorem step {a : Action} (h : Quits s) (hseats : Seats s) (hsettles : s.Settles a)
    (hstep : s.step a = some s') : Quits s' := by
  have hopen : ∀ {f : Conn → Conn} {d : Nat}, (∀ k, (f k).over = true → k.over = true) → Quits (s.setConn d f) :=
    fun hf => h.setConn fun k _ hover => .inl (hf k hover)
  have hhung : ∀ {k k' : Conn}, k'.over = true → k'.closed = k.closed → k'.hungUp = false → k.over = true := by
    intro k k' hover hclosed hhung
    rw [Conn.over, hclosed, hhung, Bool.or_false] at hover
    rw [Conn.over, hover]
    rfl
  have hholds : ∀ {op : Op}, op.phase = .negotiating ∨ op.phase = .checking ∨ op.phase = .securing →
    op.phase.freed = false := by
    rintro op (hphase | hphase | hphase) <;> rw [hphase] <;> rfl
  cases State.moves_of_step hstep with
  | connect =>
    intro d k hk hover
    obtain hk | rfl := slot_append hk
    · exact h d k hk hover
    · contradiction
  | init | turnDown | note | other => exact hopen fun _ hover => hhung hover rfl rfl
  | offer hidle => exact h.addOp hidle rfl fun _ => ⟨rfl, rfl⟩
  | @candidate c session raw =>
    have hlogged : Quits (s.setConn c fun k =>
        { k with hungUp := false, log := k.log ++ [⟨.candidate, decide (k.session = some session), none⟩] }) :=
      hopen fun _ hover => hhung hover rfl rfl
    exact (Keeps.setOp _ (f := fun op => { op with remotes := op.remotes ++ [raw] }) fun _ _ => ⟨rfl, id⟩).quits hlogged
  | @bye c session =>
    have hforgotten : Keeps s (((s.cancelKeepalive session).removeAgent session fun _ => .dropped).releaseBridge session) :=
      ((Keeps.cancelKeepalive session).trans (.removeAgent session fun _ =>
        (nofun : AgentFate.dropped ≠ .registered))).trans (.congr (by simp) (by simp))
    exact (hforgotten.quits h).setConn fun x _ hover => .inl (hhung hover rfl rfl)
  | found => exact h.setConn fun _ _ hover => .inl hover
  | @miss c session k hk htask =>
    refine h.byeDone session ?_
    intro x hx hown
    obtain rfl : k = x := mem_unique hk hx
    exact hsettles (by simp [State.quitting, hk, htask, hown])
  | remove hk htask hpending => exact h.remove hseats hsettles hk htask hpending
  | @removeNothing c session tag k hk htask hnone =>
    refine h.byeDone session ?_
    intro x hx hown op hop hconn
    obtain rfl : k = x := mem_unique hk hx
    obtain ⟨m, hm⟩ := getElem?_of_mem hop
    obtain hspent | ⟨hmap, -⟩ := of_removing hsettles hk htask hown hm hconn
    · exact hspent
    · rw [hnone] at hmap
      contradiction
  | close => exact h.setConn fun _ _ _ => .inr hsettles
  | rejected hop _ _ hphase => exact (Keeps.reject hop (hholds (.inl hphase))).quits h
  | withoutIce hop _ _ hphase => exact Keeps.quits (.setOp_of_holding hop (hholds (.inl hphase)) fun _ => rfl) h
  | brokenIce hop _ _ hphase => exact (Keeps.failChecks hop (hholds (.inl hphase)) _).quits h
  | withIce hop _ _ hphase => exact (Keeps.withIce hop (hholds (.inl hphase)) _ _ _).quits h
  | @checked i _ _ _ hop _ _ hphase =>
    have hset : Keeps s (s.setOp i fun op => { op with keepalive := true, phase := .securing }) :=
      .setOp_of_holding hop (hholds (.inr (.inl hphase))) fun _ => rfl
    exact (hset.trans (.congr rfl rfl)).quits h
  | unchecked hop _ _ hphase => exact (Keeps.failChecks hop (hholds (.inr (.inl hphase))) _).quits h
  | tagged hop hphase => exact Keeps.quits (.setOp_of_holding hop (hholds (.inr (.inr hphase))) fun _ => rfl) h
  | @single i _ hop hphase =>
    have hsingle : Keeps s (s.setOp i fun op => { op with phase := .single }) :=
      .setOp_of_holding hop (hholds (.inr (.inr hphase))) fun _ => rfl
    exact (hsingle.trans (.reply i _)).quits h
  | unsecured hop hphase => exact (Keeps.reject hop (hholds (.inr (.inr hphase)))).quits h
  | @meet i j tag op hop _ hphase hpending =>
    have hne := hseats.ne_of_pending hpending hop (by rw [hphase]; nofun)
    have htaken : Keeps s (s.setOp j fun op => { op with evictor := false, phase := .taken i }) :=
      .unpark hseats hpending fun _ => rfl
    have hbridging := htaken.trans (.setOp_of_holding ((State.setOp_ne _ hne).trans hop) (by rw [hphase]; rfl)
      (f := fun op => { op with phase := .bridging j }) fun _ => rfl)
    exact (hbridging.trans (.congr rfl rfl)).quits h
  | wait hop _ hphase => exact Keeps.quits (.setOp_of_holding hop (by rw [hphase]; rfl) fun _ => rfl) h
  | @park i _ tag op hop _ hphase =>
    have hparked := Keeps.overwrite hseats hop hphase tag
      (f := fun op => { op with phase := .parked, evictor := true }) fun _ => rfl
    exact (hparked.trans (.reply i _)).quits h
  | @parkDialog i tag op hop _ hphase =>
    have hparked := Keeps.overwrite hseats hop hphase tag
      (f := fun op => { op with phase := .parked, evictor := true, session := some s.syntheticSession }) fun _ => rfl
    exact (hparked.trans (.congr rfl rfl)).quits h
  | @bridge i j op partner hop hphase =>
    have hpaired : Keeps s ((s.setOp j fun op => { op with phase := .paired s.bridges.length }).setOp i
        fun op => { op with phase := .paired s.bridges.length }) := .settle hseats hop hphase (fun _ => rfl) fun _ => rfl
    refine (hpaired.trans (.trans (.congr ?_ ?_) (.reply i _))).quits h
    · simp
    · simp
  | @strand i j op partner hop hphase =>
    have hstranded : Keeps s ((s.setOp j fun op => { op with phase := .gone (.stranded i) }).setOp i
        fun op => { op with phase := .failed }) := .settle hseats hop hphase (fun _ => rfl) fun _ => rfl
    exact (hstranded.trans (.reply i _)).quits h
  | @evict i j tag session op hop htag hsession hevictor hpending =>
    have hfired : Keeps s (s.setOp i fun op => { op with evictor := false }) := .setOp i fun _ _ => ⟨rfl, id⟩
    have hfree : Seats (s.setOp i fun op => { op with evictor := false }) := hseats.setAgent i fun _ => ⟨rfl, rfl, rfl, rfl⟩
    have hout := hfired.trans
      (.unpark hfree hpending (f := fun op => { op with endpoint := false, phase := .gone (.deadline i) }) fun _ => rfl)
    exact (hout.trans (.congr rfl rfl)).quits h
  | spare => exact Keeps.quits (.setOp _ fun _ _ => ⟨rfl, id⟩) h
  | @stopKeepalive i =>
    refine (Keeps.setOp i ?_).quits h
    intro x _
    refine ⟨rfl, ?_⟩
    intro hspent
    simp only [Op.spent, Bool.and_eq_true] at hspent ⊢
    exact ⟨hspent.1, rfl⟩
  | invite =>
    refine Keeps.quits (s := s) ⟨?_, fun c k hk hover => ⟨k, hk, hover⟩⟩ h
    intro op hop
    obtain hop | hop := mem_append.mp hop
    · exact .inr ⟨op, hop, rfl, id⟩
    · obtain rfl := mem_singleton.mp hop
      exact .inl rfl
  | @hangUp i | @endDialog i =>
    have hended : Keeps s (s.setOp i fun op => { op with ended := true, endpoint := false }) := .setOp i fun _ _ => ⟨rfl, id⟩
    exact (hended.trans (.congr rfl rfl)).quits h

end Quits

/-! ## what is left -/

/-- What every settled step keeps. -/
structure State.Ledger (s : State) : Prop where
  owned : Owned s
  seats : Seats s
  agents : Agents s
  quits : Quits s

namespace State.Ledger

variable {s s' : State} {i c : Nat} {op : Op}

theorem empty : ({} : State).Ledger := by
  refine ⟨⟨?_, ?_, ?_, ?_, ?_⟩, .empty, .empty, .empty⟩ <;> simp [State.OffersChecked]

theorem step {a : Action} (h : s.Ledger) (hsettles : s.Settles a) (hstep : s.step a = some s') : s'.Ledger :=
  ⟨h.owned.step hstep, h.seats.step hsettles hstep, h.agents.step h.owned hsettles hstep,
    h.quits.step h.seats hsettles hstep⟩

theorem released (h : s.Ledger) : s.Released := by
  refine ⟨?_, ?_⟩
  · intro c k hk _ hover i op hop hconn
    have hspent := h.quits c k hk hover op (mem_of_getElem? hop) hconn
    simp only [Op.spent, Bool.and_eq_true, decide_eq_true_eq, Bool.not_eq_true'] at hspent
    obtain ⟨⟨hfreed, hagent⟩, hkeepalive⟩ := hspent
    have hsome : op.conn.isSome = true := by
      rw [hconn]
      rfl
    refine ⟨?_, ?_, hkeepalive, ?_⟩
    · rw [h.seats.endpoint i op hop hsome, hfreed]
      rfl
    · intro session hmap
      exact hagent (h.agents.of_held hop hmap).2.2
    · intro b x hpaired
      rw [hpaired] at hfreed
      contradiction
  · intro i op hop hsome hfailed
    have hearly : op.phase.early = true := by
      rw [hfailed]
      rfl
    have hbare : op.phase.bare = true := by
      rw [hfailed]
      rfl
    obtain ⟨hkeepalive, hnone⟩ := h.agents.unkept i op hop hsome hearly
    obtain ⟨hagent, hnobody⟩ := h.agents.unbuilt i op hop hsome hbare
    refine ⟨?_, hkeepalive, ?_, ?_⟩
    · rw [h.seats.endpoint i op hop hsome, hfailed]
      rfl
    · intro session
      refine ⟨?_, hnone session⟩
      intro hmap
      exact hagent (h.agents.of_held hop hmap).2.2
    · intro op' hop'
      refine ⟨hnobody op' hop', ?_⟩
      intro hstranded
      obtain ⟨m, hm⟩ := getElem?_of_mem hop'
      obtain ⟨x, hx, hnone⟩ := h.agents.stranded m op' i hm hstranded
      obtain rfl : op = x := mem_unique hop hx
      rw [hnone] at hsome
      contradiction

theorem spent (h : s.Ledger) (hop : s.ops[i]? = some op) (hsome : op.conn.isSome = true) (hendpoint : op.endpoint = false)
    (hagents : ∀ session, s.iceAgents session ≠ some i) (hkeepalive : op.keepalive = false) : op.spent = true := by
  have hfreed : op.phase.freed = true := by
    have hheld := h.seats.endpoint i op hop hsome
    rw [hendpoint] at hheld
    simpa using hheld.symm
  have hagent : op.agent ≠ .registered := by
    intro hregistered
    obtain ⟨session, -, hmap⟩ := h.agents.registered i op hop hregistered
    exact hagents session hmap
  simp [Op.spent, hfreed, hagent, hkeepalive]

theorem spent_of_released (h : s.Ledger) {s' : State} (hreleased : s'.Released) (hops : s'.ops = s.ops)
    (hagents : s'.iceAgents = s.iceAgents) {k : Conn} (hk : s'.conns[c]? = some k) (htask : k.task = none)
    (hover : k.over = true) : ∀ op ∈ s.ops, op.conn = some c → op.spent = true := by
  intro op hop hconn
  obtain ⟨i, hi⟩ := getElem?_of_mem hop
  obtain ⟨hendpoint, hmap, hkeepalive, -⟩ := hreleased.ended c k hk htask hover i op (hops ▸ hi) hconn
  rw [hagents] at hmap
  have hsome : op.conn.isSome = true := by
    rw [hconn]
    rfl
  exact h.spent hi hsome hendpoint hmap hkeepalive

section Broken

variable {session : SessionId} {tag : String}

theorem failed_reject (hop : s.ops[i]? = some op) (hsome : op.conn.isSome = true) (hreleased : (s.reject i).Released) :
    op.keepalive = false ∧ (∀ session, s.iceAgents session ≠ some i ∧ s.iceKeepalives session ≠ some i) ∧
      ∀ x ∈ s.ops, x.agent ≠ .displaced i := by
  have hself : (s.reject i).ops[i]? = some { op with phase := .failed, endpoint := false } := by
    simp [hop]
  obtain ⟨-, hkeepalive, hmaps, hothers⟩ := hreleased.failed i _ hself hsome rfl
  refine ⟨hkeepalive, ?_, ?_⟩
  · simpa using hmaps
  · intro x hx hdisplaced
    obtain ⟨m, hm⟩ := getElem?_of_mem hx
    by_cases him : i = m
    · subst him
      obtain rfl : op = x := mem_unique hop hm
      exact (hothers _ (mem_of_getElem? hself)).1 hdisplaced
    · have hx' : (s.reject i).ops[m]? = some x := by
        simp [getElem?_modify_ne _ _ him, hm]
      exact (hothers x (mem_of_getElem? hx')).1 hdisplaced

/-- The checks of an offer fail, and nothing is left of it: no agent but its own was there. -/
theorem failed_failChecks (h : s.Ledger) (hop : s.ops[i]? = some op) (hsome : op.conn.isSome = true)
    (hreleased : (s.failChecks i session).Released) :
    (∀ j ∈ s.iceAgents session, j = i) ∧ ∀ x ∈ s.ops, x.agent ≠ .displaced i := by
  obtain ⟨agent, hop'⟩ := State.op_removeAgent hop session fun j => if j = i then .dropped else .displaced i
  obtain ⟨-, -, hnobody⟩ := failed_reject hop' hsome hreleased
  unfold State.removeAgent at hnobody
  cases hmap : s.iceAgents session with
  | none =>
    rw [hmap] at hnobody
    exact ⟨nofun, hnobody⟩
  | some j =>
    rw [hmap] at hnobody
    obtain ⟨occupant, hj, -, -, hregistered⟩ := h.agents.held session j hmap
    have hleft := hnobody _ (mem_of_getElem? (State.setOp_self hj))
    have hji : j = i := by
      by_contra hne
      exact hleft (if_neg hne)
    refine ⟨?_, ?_⟩
    · intro k hk
      rw [← Option.some.inj hk]
      exact hji
    · intro x hx hdisplaced
      obtain ⟨m, hm⟩ := getElem?_of_mem hx
      have hjm : j ≠ m := by
        rintro rfl
        obtain rfl : occupant = x := mem_unique hj hm
        rw [hregistered] at hdisplaced
        contradiction
      exact hnobody x (mem_of_getElem? ((State.setOp_ne _ hjm).trans hm)) hdisplaced

/-- The bye of a connection's own session is done with, and nothing is left of its offers. -/
theorem of_byeDone {s₁ : State} {session : SessionId} {k : Conn} (hreleased : (s₁.byeDone c session).Released)
    (hk : s₁.conns[c]? = some k) (hown : k.session = some session) {x : Op}
    (hx : s₁.ops[i]? = some x) (hconn : x.conn = some c) :
    x.endpoint = false ∧ (∀ own, s₁.iceAgents own ≠ some i) ∧ x.keepalive = false := by
  have hk' : (s₁.byeDone c session).conns[c]? = some { k with
      task := none, hungUp := decide (k.session = some session)
      log := k.log ++ [⟨.bye, decide (k.session = some session), none⟩] } := by
    simp [State.byeDone, hk]
  obtain ⟨hendpoint, hmap, hkeepalive, -⟩ := hreleased.ended c _ hk' rfl (by simp [Conn.over, hown]) i x hx hconn
  exact ⟨hendpoint, hmap, hkeepalive⟩

theorem broken {a : Action} (h : s.Ledger) (hunsettled : ¬ s.Settles a) (hstep : s.step a = some s') : ¬ s'.Released := by
  intro hreleased
  have hsome : ∀ {op : Op} {c : Nat}, op.conn = some c → op.conn.isSome = true := fun hconn => by rw [hconn]; rfl
  -- when a bye is done with that is the connection's own
  have hown : ∀ {c : Nat} {k : Conn} {session : SessionId}, s.conns[c]? = some k →
      k.task = some (.finding session) ∨ (∃ tag, k.task = some (.removing session tag)) → s.quitting c = true →
      k.session = some session := by
    rintro c k session hk (htask | ⟨tag, htask⟩) hquitting <;> simpa [State.quitting, hk, htask] using hquitting
  apply hunsettled
  cases State.moves_of_step hstep with
  | @close c k hidle =>
    obtain ⟨hk, -, htask⟩ := State.of_idle hidle
    have hk' : (s.setConn c fun k => { k with closed := true }).conns[c]? = some { k with closed := true } := by
      simp [hk]
    exact h.spent_of_released hreleased rfl rfl hk' htask rfl
  | @miss c session k hk htask =>
    intro hquitting op hop hconn
    obtain ⟨i, hi⟩ := getElem?_of_mem hop
    obtain ⟨hendpoint, hmap, hkeepalive⟩ := of_byeDone hreleased hk (hown hk (.inl htask) hquitting) hi hconn
    exact h.spent hi (hsome hconn) hendpoint hmap hkeepalive
  | @remove c session tag j k hk htask hpending =>
    intro hquitting i _ op hop hconn
    have hremoved : s.removed c = s.pending tag := by
      simp [State.removed, hk, htask]
    have hsession := hown hk (.inr ⟨tag, htask⟩) hquitting
    by_cases hji : j = i
    · subst hji
      obtain ⟨-, hmap, hkeepalive⟩ := of_byeDone hreleased hk hsession (State.setOp_self hop) hconn
      refine .inr ⟨hremoved.trans hpending, ?_, hkeepalive⟩
      intro hregistered
      obtain ⟨own, -, hheld⟩ := h.agents.registered j op hop hregistered
      exact hmap own hheld
    · obtain ⟨hendpoint, hmap, hkeepalive⟩ := of_byeDone hreleased hk hsession ((State.setOp_ne _ hji).trans hop) hconn
      exact .inl (h.spent hop (hsome hconn) hendpoint hmap hkeepalive)
  | @removeNothing c session tag k hk htask =>
    intro hquitting i _ op hop hconn
    obtain ⟨hendpoint, hmap, hkeepalive⟩ := of_byeDone hreleased hk (hown hk (.inr ⟨tag, htask⟩) hquitting) hop hconn
    exact .inl (h.spent hop (hsome hconn) hendpoint hmap hkeepalive)
  | @brokenIce i c session _ op hop hconn hsession hphase =>
    intro x hx own hown
    obtain rfl : op = x := mem_unique hop hx
    obtain rfl : session = own := mem_unique hsession hown
    obtain ⟨honly, -⟩ := h.failed_failChecks hop (hsome hconn) hreleased
    cases hmap : s.iceAgents session with
    | none => rfl
    | some j =>
      -- the offer itself has no agent yet
      obtain rfl := honly j hmap
      obtain ⟨y, hy, -, -, hregistered⟩ := h.agents.held session j hmap
      obtain rfl : op = y := mem_unique hop hy
      exact absurd hregistered (h.agents.unbuilt j op hop (hsome hconn) (by rw [hphase]; rfl)).1
  | @unchecked i c session op hop hconn hsession =>
    intro x hx own hown
    obtain rfl : op = x := mem_unique hop hx
    obtain rfl : session = own := mem_unique hsession hown
    exact h.failed_failChecks hop (hsome hconn) hreleased
  | @unsecured i op hop hphase =>
    intro x hx
    obtain rfl : op = x := mem_unique hop hx
    obtain ⟨hoffer, -⟩ := h.seats.endpoint_of_opening hop (by rw [hphase]; rfl)
    obtain ⟨hkeepalive, hmaps, hnobody⟩ := failed_reject hop hoffer hreleased
    refine ⟨?_, hkeepalive, fun session _ => (hmaps session).2, hnobody⟩
    intro hregistered
    obtain ⟨session, -, hmap⟩ := h.agents.registered i op hop hregistered
    exact (hmaps session).1 hmap
  | @strand i j op partner hop hphase hpartner =>
    intro x hx
    obtain rfl : op = x := mem_unique hop hx
    obtain ⟨y, hy, htaken⟩ := h.seats.bridging i op j hop hphase
    have hne : j ≠ i := by
      rintro rfl
      obtain rfl : op = y := mem_unique hop hy
      rw [hphase] at htaken
      contradiction
    cases hconn : op.conn with
    | none => rfl
    | some c =>
      let stranded : State := (s.setOp j fun op => { op with phase := .gone (.stranded i) }).setOp i
        fun op => { op with phase := .failed }
      have hself : stranded.ops[i]? = some { op with phase := .failed } := State.setOp_self ((State.setOp_ne _ hne).trans hop)
      have hother : stranded.ops[j]? = some { partner with phase := .gone (.stranded i) } :=
        (State.setOp_ne _ hne.symm).trans (State.setOp_self hpartner)
      have hops : (stranded.reply i (.error "offer-rejected")).ops = stranded.ops := by
        simp
      obtain ⟨-, -, -, hothers⟩ := hreleased.failed i _ (hops ▸ hself) (by rw [hconn]; rfl) rfl
      exact absurd rfl (hothers _ (mem_of_getElem? (hops ▸ hother))).2
  | _ => trivial

end Broken

end State.Ledger

/-- **Along a run nothing is left of what has ended exactly when every step settles what it
leaves behind.** -/
theorem released_iff {as : List Action} {s' : State} (hexec : exec State.step {} as = some s') :
    (∀ before after s, as = before ++ after → exec State.step {} before = some s → s.Released) ↔
      Meets State.step State.Settles {} as :=
  meets_iff (I := State.Ledger) (fun _ h => h.released) (fun _ _ _ h hsettles hstep => h.step hsettles hstep)
    (fun _ _ _ h hunsettled hstep => h.broken hunsettled hstep) hexec .empty

/-- A leg with an agent and a keepalive task is parked, and its session hangs up. -/
def sampleBye : List Action :=
  [.connect, .init 0 (some "t"), .offer 0 0 true true, .negotiated 0 (.accepted (.on ["relay"]) true), .checked 0 true,
    .secured 0 true, .look 0, .park 0, .bye 0 0, .find 0 (some "t"), .remove 0, .close 0]

theorem released_sampleBye :
    ∃ s', exec State.step {} sampleBye = some s' ∧ s'.ops.map Op.endpoint = [false] ∧
      ∀ before after s, sampleBye = before ++ after → exec State.step {} before = some s → s.Released := by
  have hendpoints : (exec State.step {} sampleBye).map (fun s => s.ops.map Op.endpoint) = some [false] := by
    decide +kernel
  obtain ⟨s', hexec, hendpoints⟩ := map_eq_some_iff.mp hendpoints
  exact ⟨s', hexec, hendpoints, (released_iff hexec).mpr (by decide +kernel)⟩

/-- An offer without a tag is answered, and its session hangs up. -/
def sampleSingle : List Action :=
  [.connect, .init 0 none, .offer 0 0 true true, .negotiated 0 (.accepted .off false),
    .secured 0 true, .bye 0 0, .find 0 none]

/-- Its endpoint is never released. -/
theorem single_endpoint_kept : ¬ ∀ (as : List Action) (s' : State), exec State.step {} as = some s' → s'.Released := by
  intro h
  have hview : (exec State.step {} sampleSingle).map (fun s => (s.conns.map fun k => (k.task, k.over), s.ops.map fun op =>
      (op.conn, op.endpoint))) = some ([(none, true)], [(some 0, true)]) := by
    decide +kernel
  obtain ⟨s', hexec, hview⟩ := map_eq_some_iff.mp hview
  rw [Prod.mk.injEq] at hview
  obtain ⟨hconns, hops⟩ := hview
  have hconn : (s'.conns.map fun k => (k.task, k.over))[0]? = some (none, true) := by
    rw [hconns]
    rfl
  have hop : (s'.ops.map fun op => (op.conn, op.endpoint))[0]? = some (some 0, true) := by
    rw [hops]
    rfl
  rw [getElem?_map] at hconn hop
  obtain ⟨k, hk, hconn⟩ := map_eq_some_iff.mp hconn
  obtain ⟨op, hop, hheld⟩ := map_eq_some_iff.mp hop
  rw [Prod.mk.injEq] at hconn hheld
  obtain ⟨hreleased, -⟩ := (h sampleSingle s' hexec).ended 0 k hk hconn.1 hconn.2 0 op hop hheld.1
  rw [hreleased] at hheld
  exact absurd hheld.2 Bool.false_ne_true

end SmithsNet.Webrtc
