import Mathlib
import SmithsNet.Lib.Exec
import SmithsNet.Lib.KeyMap
import SmithsNet.Mcp.Value

/-!
# SmithsNet.Mcp.HttpSessions

The session gate of the MCP HTTP transport.

`initialize` mints a session id, and every later request bears it.  The table of
sessions is bounded, and an idle session expires.  The gate is passed once for a whole
request: a batch without a session id is let through when one of its messages is
`initialize`, and then all of them are dispatched.

`sound_iff`: what is dispatched came under a session that was minted, still stands and
was seen lately, in every state of a run, exactly when no batch without a session id
mixes `initialize` with other messages.  The bound of the table and the choice of the
session that gives way hold in every run.
-/

namespace SmithsNet.Mcp

open Lib

def PROTOCOL_VERSION : String := "2025-03-26"

/-- Every protocol revision `initialize` accepts. -/
def SUPPORTED_PROTOCOL_VERSIONS : List String := ["2024-11-05", "2025-03-26", "2025-06-18"]

/-- `negotiate_protocol_version`. -/
def negotiateProtocolVersion (requested : Option Text) : String :=
  (requested.bind fun r => SUPPORTED_PROTOCOL_VERSIONS.find? fun v => v.toList = r).getD PROTOCOL_VERSION

/-- `HeaderValue::to_str`: visible ASCII, blanks and tabs. -/
def toStr (value : Bytes) : Option Text :=
  if value.all fun b => decide (b = 9) || (decide (32 ≤ b) && decide (b < 127)) then
    some (value.map fun b => Char.ofNat b.toNat)
  else none

/-! ## the store -/

/-- A session; times are in milliseconds. -/
structure Session where
  protocolVersion : String
  lastSeen : Nat

abbrev Sessions := KeyMap Text Session

/-- `SessionStore` and `AppState`, as far as they do not change. -/
structure AppState where
  idle : Nat
  max : Nat
  requireSession : Bool

/-- The order in which a table is iterated over. -/
structure Visit where
  order : List (Sigma fun _ : Text => Session) → List (Sigma fun _ : Text => Session)
  perm : ∀ l, (order l).Perm l

namespace AppState

variable (app : AppState)

def expireIdle (now : Nat) (t : Sessions) : Sessions := t.retain fun _ s => decide (now - s.lastSeen ≤ app.idle)

/-- `evict_oldest`, and what it removes from which table. -/
def evictOldest (visit : Visit) (t : Sessions) : Sessions × Option (Text × Sessions) :=
  match (visit.order t.entries).argmin fun e => e.2.lastSeen with
  | some e => (t.erase e.1, some (e.1, t))
  | none => (t, none)

/-- `create`, for the id drawn. -/
def create (now : Nat) (visit : Visit) (id : Text) (protocolVersion : String) (t : Sessions) :
    Sessions × Option (Text × Sessions) :=
  let expired := app.expireIdle now t
  let room := if app.max ≤ expired.len then evictOldest visit expired else (expired, none)
  (room.1.insert id ⟨protocolVersion, now⟩, room.2)

def touch (now : Nat) (id : Text) (t : Sessions) : Sessions × Option String :=
  match t.lookup id with
  | none => (t, none)
  | some s =>
    if now - s.lastSeen > app.idle then (t.erase id, none)
    else (t.insert id { s with lastSeen := now }, some s.protocolVersion)

end AppState

/-! ## requests -/

/-- A `POST /mcp`. -/
structure Post (N : Type) where
  /-- The header `mcp-protocol-version`. -/
  version : Option Bytes
  /-- The header `mcp-session-id`. -/
  session : Option Bytes
  /-- What `serde_json` reads in the body. -/
  payload : Option (Value N)
  /-- When it comes in, and when its messages have been dispatched. -/
  received : Nat
  answered : Nat
  /-- The id that is drawn if a session is created, and how the table is iterated over then. -/
  id : Text
  visit : Visit

inductive Reply
  | refused (status : Nat) (error : Text)
  /-- `400`: the body does not parse. -/
  | unparsed
  /-- The responses, and the id of the new session. -/
  | answered (session : Option Text)

/-- A request and what came of it. -/
structure Exchange (N : Type) where
  received : Nat
  answered : Nat
  /-- The session id it bears. -/
  bears : Option Text
  reply : Reply
  /-- The session was touched. -/
  touched : Bool := false
  dispatched : List (Value N) := []
  deleted : Option Text := none
  /-- The session that gave way, and the table it was taken from. -/
  evicted : Option (Text × Sessions) := none

variable {N : Type}

/-- `m["method"] == "initialize"`. -/
def Value.isInitialize (m : Value N) : Bool := decide ((m.index "method".toList).asStr = some "initialize".toList)

/-- The messages of a payload: those of a batch, or the one. -/
def Value.messages : Value N → List (Value N)
  | .array items => items
  | other => [other]

namespace Post

variable (r : Post N)

/-- The session id that is read. -/
def bears : Option Text := r.session.bind toStr

/-- `check_protocol_version_header`. -/
def versionRefused : Option Text :=
  (r.version.bind toStr).filter fun v => !(SUPPORTED_PROTOCOL_VERSIONS.any fun w => w.toList = v)

def exchange (reply : Reply) : Exchange N :=
  { received := r.received, answered := r.answered, bears := r.bears, reply := reply }

/-- `post_mcp` behind the session header: `bound` is that of a valid session. -/
def admitted (app : AppState) (bound : Bool) (t : Sessions) : Sessions × Exchange N :=
  match r.payload with
  | none => (t, { r.exchange .unparsed with touched := bound })
  | some payload =>
    let messages := payload.messages
    let initializing := messages.any Value.isInitialize
    if bound = false ∧ app.requireSession = true ∧ initializing = false then
      (t, r.exchange (.refused 400 "Mcp-Session-Id required".toList))
    else if initializing = true ∧ bound = false then
      let requested := (messages.find? Value.isInitialize).bind fun m =>
        ((m.index "params".toList).index "protocolVersion".toList).asStr
      let created := app.create r.answered r.visit r.id (negotiateProtocolVersion requested) t
      (created.1, { r.exchange (.answered (some r.id)) with dispatched := messages, evicted := created.2 })
    else (t, { r.exchange (.answered none) with touched := bound, dispatched := messages })

/-- `post_mcp`. -/
def perform (app : AppState) (t : Sessions) : Sessions × Exchange N :=
  match r.versionRefused with
  | some v => (t, r.exchange (.refused 400 ("unsupported MCP-Protocol-Version `".toList ++ v ++ "`".toList)))
  | none =>
    match r.bears with
    | some id =>
      match app.touch r.received id t with
      | (t', some _) => r.admitted app true t'
      | (t', none) => (t', r.exchange (.refused 404 "unknown or expired Mcp-Session-Id".toList))
    | none => r.admitted app false t

end Post

/-- `delete_mcp`. -/
def deleteMcp (session : Option Bytes) (now : Nat) (t : Sessions) : Sessions × Exchange N :=
  match session.bind toStr with
  | none => (t, ⟨now, now, none, .refused 400 "Mcp-Session-Id required".toList, false, [], none, none⟩)
  | some id =>
    (t.erase id, { received := now, answered := now, bears := some id, deleted := some id
                   reply := if id ∈ t then .answered none else .refused 404 "unknown or expired Mcp-Session-Id".toList })

/-! ## runs -/

inductive Action (N : Type)
  | post (r : Post N)
  | delete (session : Option Bytes) (now : Nat)

/-- The session that an exchange has minted. -/
def Exchange.minted (x : Exchange N) : Option Text :=
  match x.reply with
  | .answered session => session
  | _ => none

/-- What happened so far is kept newest first. -/
structure State (N : Type) where
  sessions : Sessions := ∅
  log : List (Exchange N) := []
  now : Nat := 0

def State.record (s : State N) (y : Sessions × Exchange N) : State N := ⟨y.1, y.2 :: s.log, y.2.answered⟩

/-- One request; times do not decrease, and the ids minted are distinct. -/
def step (app : AppState) (s : State N) : Action N → Option (State N)
  | .post r =>
    if s.now ≤ r.received ∧ r.received ≤ r.answered ∧ ∀ x ∈ s.log, x.minted ≠ some r.id then
      some (s.record (r.perform app s.sessions))
    else none
  | .delete session now => if s.now ≤ now then some (s.record (deleteMcp session now s.sessions)) else none

/-- When a session was last seen: it was minted before, and neither deleted nor evicted since. -/
def lastSeen (id : Text) : List (Exchange N) → Option Nat
  | [] => none
  | x :: past =>
    if x.minted = some id then some x.answered
    else if x.deleted = some id ∨ x.evicted.map Prod.fst = some id then none
    else if x.touched = true ∧ x.bears = some id then (lastSeen id past).map fun _ => x.received
    else lastSeen id past

/-- An exchange is within the gate, after what happened before it. -/
structure Exchange.Gated (app : AppState) (x : Exchange N) (past : List (Exchange N)) : Prop where
  session : ∀ m ∈ x.dispatched, m.isInitialize = false →
    ∃ id, x.bears = some id ∧ ∃ seen, lastSeen id past = some seen ∧ x.received - seen ≤ app.idle
  minted : ∀ id, x.minted = some id → ∃ m ∈ x.dispatched, m.isInitialize = true
  /-- The table was full of unexpired sessions, and none had been seen earlier. -/
  evicted : ∀ id t, x.evicted = some (id, t) → t.len = app.max ∧
    (∀ k v, t.lookup k = some v → x.answered - v.lastSeen ≤ app.idle) ∧
    ∃ v, t.lookup id = some v ∧ ∀ k w, t.lookup k = some w → v.lastSeen ≤ w.lastSeen

structure State.Sound (app : AppState) (s : State N) : Prop where
  bound : s.sessions.len ≤ app.max
  gated : ∀ x past, x :: past <:+ s.log → x.Gated app past

/-- A batch that is let through without a session id holds nothing but `initialize`, or none. -/
def Unmixed (_ : State N) : Action N → Prop
  | .post r => r.versionRefused = none → r.bears = none → ∀ payload ∈ r.payload,
      payload.messages.any Value.isInitialize = true → payload.messages.all Value.isInitialize = true
  | .delete _ _ => True

instance (s : State N) : DecidablePred (Unmixed s)
  | .post _ => inferInstanceAs (Decidable (_ → _ → ∀ _ ∈ _, _))
  | .delete _ _ => isTrue trivial

/-! ## the store keeps what was seen -/

section Store

variable {app : AppState} {t t' : Sessions} {now : Nat} {id k : Text} {v : Session} {visit : Visit} {version : String}

theorem touch_some {o : String} (h : app.touch now id t = (t', some o)) :
    ∃ v, t.lookup id = some v ∧ now - v.lastSeen ≤ app.idle ∧ t' = t.insert id { v with lastSeen := now } := by
  unfold AppState.touch at h
  split at h
  · cases h
  · next v hv =>
    split at h
    · cases h
    · next hidle =>
      cases h
      exact ⟨v, hv, Nat.le_of_not_gt hidle, rfl⟩

theorem touch_none (h : app.touch now id t = (t', none)) : t' = t ∨ t' = t.erase id := by
  unfold AppState.touch at h
  split at h
  · cases h
    exact .inl rfl
  · split at h
    · cases h
      exact .inr rfl
    · cases h

theorem len_erase_le (id : Text) (t : Sessions) : KeyMap.len (t.erase id) ≤ t.len := by
  have hsub : (t.erase id).entries.Sublist t.entries := List.kerase_sublist id t.entries
  exact hsub.length_le

theorem evictOldest_spec (hfull : 0 < t.len) (visit : Visit) :
    ∃ id v, AppState.evictOldest visit t = (t.erase id, some (id, t)) ∧ t.lookup id = some v ∧
      ∀ k w, t.lookup k = some w → v.lastSeen ≤ w.lastSeen := by
  have hmem : ∀ e, e ∈ visit.order t.entries ↔ e ∈ t.entries := fun e => (visit.perm t.entries).mem_iff
  unfold AppState.evictOldest
  split
  · next e he =>
    refine ⟨e.1, e.2, rfl, KeyMap.mem_entries_iff.mp ((hmem e).mp (List.argmin_mem he)), ?_⟩
    intro k w hw
    exact List.le_of_mem_argmin (f := fun e => e.2.lastSeen) ((hmem ⟨k, w⟩).mpr (KeyMap.mem_entries_iff.mpr hw)) he
  · next hnone =>
    have hlen := (visit.perm t.entries).length_eq
    rw [List.argmin_eq_none.mp hnone] at hlen
    unfold KeyMap.len at hfull
    simp only [List.length_nil] at hlen
    omega

theorem create_spec (hmax : 0 < app.max) (hlen : t.len ≤ app.max) (hnew : t.lookup id = none) :
    ∃ (t' : Sessions) (evicted : Option (Text × Sessions)),
      app.create now visit id version t = (t'.insert id ⟨version, now⟩, evicted) ∧
      KeyMap.len (t'.insert id ⟨version, now⟩) ≤ app.max ∧
      (∀ k v, t'.lookup k = some v → t.lookup k = some v ∧ evicted.map Prod.fst ≠ some k) ∧
      ∀ k t₁, evicted = some (k, t₁) → t₁.len = app.max ∧
        (∀ k v, t₁.lookup k = some v → now - v.lastSeen ≤ app.idle) ∧
        ∃ v, t₁.lookup k = some v ∧ ∀ k w, t₁.lookup k = some w → v.lastSeen ≤ w.lastSeen := by
  have hkept : ∀ {k v}, (app.expireIdle now t).lookup k = some v → t.lookup k = some v ∧ now - v.lastSeen ≤ app.idle := by
    intro k v hv
    obtain ⟨hv, hidle⟩ := KeyMap.lookup_retain hv
    exact ⟨hv, of_decide_eq_true hidle⟩
  have hexpired : KeyMap.len (app.expireIdle now t) ≤ t.len := by
    have hsplit := KeyMap.len_retain (fun _ s => decide (now - s.lastSeen ≤ app.idle)) t
    unfold AppState.expireIdle
    omega
  have hnone : ∀ {t' : Sessions}, (∀ k v, t'.lookup k = some v → t.lookup k = some v) → t'.lookup id = none := by
    intro t' hwithin
    by_contra hsome
    obtain ⟨v, hv⟩ := Option.ne_none_iff_exists'.mp hsome
    rw [hwithin id v hv] at hnew
    cases hnew
  unfold AppState.create
  by_cases hfull : app.max ≤ KeyMap.len (app.expireIdle now t)
  · have hsome : 0 < KeyMap.len (app.expireIdle now t) := by omega
    obtain ⟨old, v, hevict, hv, hleast⟩ := evictOldest_spec hsome visit
    have hwithin : ∀ k v, ((app.expireIdle now t).erase old).lookup k = some v → t.lookup k = some v ∧ old ≠ k := by
      intro k w hw
      rw [KeyMap.lookup_erase_apply] at hw
      split at hw
      · cases hw
      · next hne => exact ⟨(hkept hw).1, Ne.symm hne⟩
    have hroom := KeyMap.len_erase hv
    have hinsert := KeyMap.len_insert (hnone fun k w hw => (hwithin k w hw).1) ⟨version, now⟩
    refine ⟨(app.expireIdle now t).erase old, some (old, app.expireIdle now t), ?_, by omega, ?_, ?_⟩
    · simp only [if_pos hfull, hevict]
    · intro k w hw
      exact ⟨(hwithin k w hw).1, fun heq => (hwithin k w hw).2 (Option.some.inj heq)⟩
    · intro k t₁ heq
      cases heq
      exact ⟨by omega, fun k w hw => (hkept hw).2, v, hv, hleast⟩
  · have hinsert := KeyMap.len_insert (hnone fun k w hw => (hkept hw).1) ⟨version, now⟩
    refine ⟨app.expireIdle now t, none, ?_, by omega, fun k w hw => ⟨(hkept hw).1, nofun⟩, nofun⟩
    simp only [if_neg hfull]

end Store

/-! ## what a request does -/

section Requests

variable {app : AppState} {t t' : Sessions} {log past : List (Exchange N)} {x : Exchange N} {r : Post N} {id k : Text}

theorem admitted_true (r : Post N) (app : AppState) (t : Sessions) :
    ∃ reply messages, r.admitted app true t =
        (t, { r.exchange reply with touched := true, dispatched := messages }) ∧ (r.exchange reply).minted = none := by
  unfold Post.admitted
  split
  · exact ⟨.unparsed, [], rfl, rfl⟩
  · next payload _ => exact ⟨.answered none, payload.messages, by simp, rfl⟩

theorem admitted_initialize {payload : Value N} (hpayload : r.payload = some payload)
    (hinit : payload.messages.any Value.isInitialize = true) (app : AppState) (t : Sessions) :
    ∃ version, r.admitted app false t = ((app.create r.answered r.visit r.id version t).1,
      { r.exchange (.answered (some r.id)) with
        dispatched := payload.messages, evicted := (app.create r.answered r.visit r.id version t).2 }) := by
  rw [Post.admitted, hpayload]
  dsimp only
  rw [if_neg fun h => absurd (hinit.symm.trans h.2.2) (by decide), if_pos ⟨hinit, rfl⟩]
  exact ⟨_, rfl⟩

theorem admitted_false (hrequire : app.requireSession = true) (r : Post N) (t : Sessions) :
    (∃ reply, r.admitted app false t = (t, r.exchange reply) ∧ (r.exchange reply).minted = none) ∨
      ∃ payload version, r.payload = some payload ∧ payload.messages.any Value.isInitialize = true ∧
        r.admitted app false t = ((app.create r.answered r.visit r.id version t).1,
          { r.exchange (.answered (some r.id)) with
            dispatched := payload.messages, evicted := (app.create r.answered r.visit r.id version t).2 }) := by
  cases hpayload : r.payload with
  | none =>
    rw [Post.admitted, hpayload]
    exact .inl ⟨.unparsed, rfl, rfl⟩
  | some payload =>
    by_cases hinit : payload.messages.any Value.isInitialize = true
    · obtain ⟨version, hadmitted⟩ := admitted_initialize hpayload hinit app t
      exact .inr ⟨payload, version, rfl, hinit, hadmitted⟩
    · rw [Post.admitted, hpayload]
      dsimp only
      rw [if_pos ⟨rfl, hrequire, Bool.not_eq_true _ ▸ hinit⟩]
      exact .inl ⟨_, rfl, rfl⟩

theorem perform_cases (hrequire : app.requireSession = true) (r : Post N) (t : Sessions) :
    (∃ t' reply, r.perform app t = (t', r.exchange reply) ∧ (r.exchange reply).minted = none ∧
      (t' = t ∨ ∃ id, t' = t.erase id)) ∨
    (∃ id v reply messages, r.bears = some id ∧ t.lookup id = some v ∧ r.received - v.lastSeen ≤ app.idle ∧
      r.perform app t = (t.insert id { v with lastSeen := r.received },
        { r.exchange reply with touched := true, dispatched := messages }) ∧ (r.exchange reply).minted = none) ∨
    ∃ payload version, r.versionRefused = none ∧ r.bears = none ∧ r.payload = some payload ∧
      payload.messages.any Value.isInitialize = true ∧
      r.perform app t = ((app.create r.answered r.visit r.id version t).1,
        { r.exchange (.answered (some r.id)) with
          dispatched := payload.messages, evicted := (app.create r.answered r.visit r.id version t).2 }) := by
  unfold Post.perform
  split
  · exact .inl ⟨t, _, rfl, rfl, .inl rfl⟩
  · next hversion =>
    split
    · next id hbears =>
      split
      · next t' o htouch =>
        obtain ⟨v, hv, hidle, rfl⟩ := touch_some htouch
        obtain ⟨reply, messages, hadmitted, hminted⟩ := admitted_true r app (t.insert id { v with lastSeen := r.received })
        exact .inr (.inl ⟨id, v, reply, messages, hbears, hv, hidle, hadmitted, hminted⟩)
      · next t' htouch =>
        exact .inl ⟨t', _, rfl, rfl, (touch_none htouch).imp_right fun h => ⟨id, h⟩⟩
    · next hbears =>
      obtain ⟨reply, hadmitted, hminted⟩ | ⟨payload, version, hpayload, hinit, hadmitted⟩ := admitted_false hrequire r t
      · exact .inl ⟨t, reply, hadmitted, hminted, .inl rfl⟩
      · exact .inr (.inr ⟨payload, version, hversion, hbears, hpayload, hinit, hadmitted⟩)

/-! ## the table and the log -/

/-- What the table says of a session is when it was last seen. -/
def Seen (t : Sessions) (log : List (Exchange N)) : Prop :=
  ∀ id v, t.lookup id = some v → lastSeen id log = some v.lastSeen

theorem exists_minted {seen : Nat} (h : lastSeen id log = some seen) : ∃ x ∈ log, x.minted = some id := by
  induction log generalizing seen with
  | nil => cases h
  | cons x past ih =>
    rw [lastSeen] at h
    split at h
    · next hminted => exact ⟨x, List.mem_cons_self, hminted⟩
    · split at h
      · cases h
      · split at h
        · obtain ⟨_, hseen, -⟩ := Option.map_eq_some_iff.mp h
          obtain ⟨y, hy, hminted⟩ := ih hseen
          exact ⟨y, List.mem_cons_of_mem x hy, hminted⟩
        · obtain ⟨y, hy, hminted⟩ := ih h
          exact ⟨y, List.mem_cons_of_mem x hy, hminted⟩

theorem lastSeen_cons (hminted : x.minted ≠ some id) (hdeleted : x.deleted ≠ some id)
    (hevicted : x.evicted.map Prod.fst ≠ some id) (hbears : x.touched = true → x.bears ≠ some id) :
    lastSeen id (x :: past) = lastSeen id past := by
  rw [lastSeen, if_neg hminted, if_neg (not_or.mpr ⟨hdeleted, hevicted⟩), if_neg fun h => hbears h.1 h.2]

section

variable (h : Seen t log)
include h

theorem Seen.erase (id : Text) : Seen (t.erase id) log := by
  intro k v hv
  rw [KeyMap.lookup_erase_apply] at hv
  split at hv
  · cases hv
  · exact h k v hv

theorem Seen.cons (hminted : x.minted = none) (hdeleted : ∀ id, x.deleted = some id → t.lookup id = none)
    (hevicted : x.evicted = none) (htouched : x.touched = false) : Seen t (x :: log) := by
  intro k v hv
  have hdeleted' : x.deleted ≠ some k := by
    intro heq
    rw [hdeleted k heq] at hv
    cases hv
  rw [lastSeen_cons (by rw [hminted]; nofun) hdeleted' (by rw [hevicted]; nofun) (by rw [htouched]; nofun)]
  exact h k v hv

theorem Seen.touch {v : Session} (hv : t.lookup id = some v) (hminted : x.minted = none)
    (hdeleted : x.deleted = none) (hevicted : x.evicted = none) (htouched : x.touched = true) (hbears : x.bears = some id) :
    Seen (t.insert id { v with lastSeen := x.received }) (x :: log) := by
  intro k w hw
  rw [KeyMap.lookup_insert_apply] at hw
  split at hw
  · next hk =>
    subst hk
    cases hw
    simp [lastSeen, hminted, hdeleted, hevicted, htouched, hbears, h k v hv]
  · next hne =>
    rw [lastSeen_cons (by rw [hminted]; nofun) (by rw [hdeleted]; nofun) (by rw [hevicted]; nofun)]
    · exact h k w hw
    · intro _ heq
      rw [hbears, Option.some.injEq] at heq
      exact hne heq.symm

theorem Seen.mint (version : String)
    (hkept : ∀ k v, t'.lookup k = some v → t.lookup k = some v ∧ x.evicted.map Prod.fst ≠ some k)
    (hminted : x.minted = some id) (hdeleted : x.deleted = none) (htouched : x.touched = false) :
    Seen (t'.insert id ⟨version, x.answered⟩) (x :: log) := by
  intro k w hw
  rw [KeyMap.lookup_insert_apply] at hw
  split at hw
  · next hk =>
    subst hk
    cases hw
    rw [lastSeen, if_pos hminted]
  · next hne =>
    obtain ⟨hw, hk⟩ := hkept k w hw
    rw [lastSeen_cons (by rw [hminted]; exact fun heq => hne (Option.some.inj heq).symm) (by rw [hdeleted]; nofun) hk
      (by rw [htouched]; nofun)]
    exact h k w hw

end

end Requests

/-! ## the gate -/

variable {app : AppState} {s s' : State N} {a : Action N} {y : Sessions × Exchange N}

theorem State.Sound.record (h : s.Sound app) (hbound : y.1.len ≤ app.max) (hgated : y.2.Gated app s.log) :
    (s.record y).Sound app where
  bound := hbound
  gated := by
    intro x past hsuffix
    obtain heq | hsuffix := List.suffix_cons_iff.mp hsuffix
    · cases heq
      exact hgated
    · exact h.gated x past hsuffix

theorem gated_idle {x : Exchange N} {past : List (Exchange N)} (hdispatched : x.dispatched = [])
    (hminted : x.minted = none) (hevicted : x.evicted = none) : x.Gated app past where
  session := by
    rw [hdispatched]
    nofun
  minted := by
    rw [hminted]
    nofun
  evicted := by
    rw [hevicted]
    nofun

theorem record_delete (h : s.Sound app) (hseen : Seen s.sessions s.log) (session : Option Bytes) (now : Nat) :
    (s.record (deleteMcp session now s.sessions)).Sound app ∧
      Seen (deleteMcp (N := N) session now s.sessions).1 ((deleteMcp session now s.sessions).2 :: s.log) := by
  unfold deleteMcp
  split
  · exact ⟨h.record h.bound (gated_idle rfl rfl rfl), hseen.cons rfl nofun rfl rfl⟩
  · next id _ =>
    have hminted : ∀ error, (Exchange.minted (N := N) ⟨now, now, some id, if id ∈ s.sessions then .answered none
        else .refused 404 error, false, [], some id, none⟩) = none := by
      intro error
      unfold Exchange.minted
      split
      · next heq =>
        split at heq <;> cases heq
        rfl
      · rfl
    have hgone : ∀ k, some id = some k → AList.lookup k (s.sessions.erase id) = none := by
      rintro k ⟨⟩
      exact AList.lookup_erase id s.sessions
    exact ⟨h.record ((len_erase_le id s.sessions).trans h.bound) (gated_idle rfl (hminted _) rfl),
      (hseen.erase id).cons (hminted _) hgone rfl rfl⟩

theorem record_post (hrequire : app.requireSession = true) (hmax : 0 < app.max) (h : s.Sound app)
    (hseen : Seen s.sessions s.log) {r : Post N} (hfresh : ∀ x ∈ s.log, x.minted ≠ some r.id)
    (hunmixed : Unmixed s (.post r)) : (s.record (r.perform app s.sessions)).Sound app ∧
      Seen (r.perform app s.sessions).1 ((r.perform app s.sessions).2 :: s.log) := by
  obtain ⟨t', reply, heq, hminted, ht'⟩ | ⟨id, v, reply, messages, hbears, hv, hidle, heq, hminted⟩ |
    ⟨payload, version, hversion, hbears, hpayload, hinit, heq⟩ := perform_cases hrequire r s.sessions
  · rw [heq]
    have hkept : Seen t' s.log ∧ t'.len ≤ app.max := by
      obtain rfl | ⟨id, rfl⟩ := ht'
      · exact ⟨hseen, h.bound⟩
      · exact ⟨hseen.erase id, (len_erase_le id s.sessions).trans h.bound⟩
    exact ⟨h.record hkept.2 (gated_idle rfl hminted rfl), hkept.1.cons hminted nofun rfl rfl⟩
  · rw [heq]
    have htouch := hseen.touch (x := { r.exchange reply with touched := true, dispatched := messages }) hv hminted
      rfl rfl rfl hbears
    refine ⟨h.record ?_ ⟨?_, ?_, nofun⟩, htouch⟩
    · rw [KeyMap.len_insert_of_some hv]
      exact h.bound
    · intro m _ _
      exact ⟨id, hbears, v.lastSeen, hseen id v hv, hidle⟩
    · intro k hk
      have hnone : (none : Option Text) = some k := hminted.symm.trans hk
      cases hnone
  · have hnew : s.sessions.lookup r.id = none := by
      by_contra hsome
      obtain ⟨v, hv⟩ := Option.ne_none_iff_exists'.mp hsome
      obtain ⟨x, hx, hminted⟩ := exists_minted (hseen r.id v hv)
      exact hfresh x hx hminted
    obtain ⟨t', evicted, hcreate, hbound, hkept, hevicted⟩ :=
      @create_spec app s.sessions r.answered r.id r.visit version hmax h.bound hnew
    rw [heq, hcreate]
    refine ⟨h.record hbound ⟨?_, ?_, hevicted⟩, ?_⟩
    · intro m hm hother
      have hall := List.all_eq_true.mp (hunmixed hversion hbears payload hpayload hinit) m hm
      rw [hother] at hall
      cases hall
    · intro _ _
      exact List.any_eq_true.mp hinit
    · exact hseen.mint (x := { r.exchange (.answered (some r.id)) with
        dispatched := payload.messages, evicted := evicted }) version hkept rfl rfl rfl

theorem not_sound (hmixed : ¬ Unmixed s a) (hstep : step app s a = some s') : ¬ s'.Sound app := by
  intro h
  cases a with
  | delete session now => exact hmixed trivial
  | post r =>
    simp only [Unmixed, Classical.not_imp, not_forall, Bool.not_eq_true, List.all_eq_false] at hmixed
    obtain ⟨hversion, hbears, payload, hpayload, hinit, m, hm, hother⟩ := hmixed
    rw [step, Option.ite_none_right_eq_some] at hstep
    obtain ⟨-, hstep⟩ := hstep
    cases hstep
    have hperform : r.perform app s.sessions = r.admitted app false s.sessions := by
      rw [Post.perform, hversion]
      dsimp only
      rw [hbears]
    obtain ⟨version, hadmitted⟩ := admitted_initialize hpayload hinit app s.sessions
    have hgated := h.gated _ _ (List.suffix_refl _)
    rw [hperform, hadmitted] at hgated
    obtain ⟨id, hid, -⟩ := hgated.session m hm (Bool.not_eq_true _ ▸ hother)
    have hnone : (none : Option Text) = some id := hbears.symm.trans hid
    cases hnone

/-- **What is dispatched passes the gate** in every state of a run exactly when no batch without
a session id mixes `initialize` with other messages. -/
theorem sound_iff (app : AppState) (hrequire : app.requireSession = true) (hmax : 0 < app.max) (acts : List (Action N))
    (s : State N) (hexec : exec (step app) {} acts = some s) :
    (∀ before after s₁, acts = before ++ after → exec (step app) {} before = some s₁ → s₁.Sound app) ↔
      Meets (step app) Unmixed {} acts := by
  refine meets_iff (I := fun s => s.Sound app ∧ Seen s.sessions s.log) (fun _ h => h.1) ?_ ?_ hexec ?_
  · rintro s₁ a s₂ ⟨h, hseen⟩ hunmixed hstep
    cases a with
    | post r =>
      rw [step, Option.ite_none_right_eq_some] at hstep
      obtain ⟨⟨-, -, hfresh⟩, hstep⟩ := hstep
      cases hstep
      exact record_post hrequire hmax h hseen hfresh hunmixed
    | delete session now =>
      rw [step, Option.ite_none_right_eq_some] at hstep
      obtain ⟨-, hstep⟩ := hstep
      cases hstep
      exact record_delete h hseen session now
  · rintro s₁ a s₂ - hmixed hstep
    exact not_sound hmixed hstep
  · exact ⟨⟨Nat.zero_le _, fun x past hsuffix => by simp at hsuffix⟩, fun id v hv => by simp at hv⟩

def sampleApp : AppState := ⟨1000, 2, true⟩

def sampleMessage (method : String) : Value Nat := .object [("method".toList, .string method.toList)]

def samplePost (session : Option Bytes) (payload : Value Nat) (now : Nat) (drawn : Char) : Action Nat :=
  .post ⟨none, session, some payload, now, now, [drawn], ⟨id, fun _ => .rfl⟩⟩

/-- A session is minted, used and deleted. -/
theorem sound_sampleRun :
    ∃ s, exec (step sampleApp) {} [samplePost none (sampleMessage "initialize") 0 'a',
        samplePost (some [97]) (sampleMessage "tools/call") 900 'b', .delete (some [97]) 1500] = some s ∧
      s.log.map (fun x => x.dispatched.length) = [0, 1, 1] ∧ s.Sound sampleApp := by
  have hview : (exec (step sampleApp) {} [samplePost none (sampleMessage "initialize") 0 'a',
      samplePost (some [97]) (sampleMessage "tools/call") 900 'b', .delete (some [97]) 1500]).map
        (fun s => s.log.map fun x => x.dispatched.length) = some [0, 1, 1] := by decide +kernel
  obtain ⟨s, hexec, hlog⟩ := Option.map_eq_some_iff.mp hview
  have hsound := (sound_iff sampleApp rfl (by decide) _ s hexec).mpr (by decide +kernel)
  exact ⟨s, hexec, hlog, hsound _ [] s (List.append_nil _).symm hexec⟩

/-- A call in the batch of an `initialize` needs no session. -/
theorem call_without_session :
    ¬ ∀ (app : AppState) (acts : List (Action Nat)) (s : State Nat), app.requireSession = true → 0 < app.max →
      exec (step app) {} acts = some s → s.Sound app := by
  intro h
  have hmixed : ¬ Unmixed {} (samplePost none (.array [sampleMessage "initialize", sampleMessage "tools/call"]) 0 'a') := by
    decide +kernel
  obtain ⟨s, hs⟩ : ∃ s, step sampleApp {} (samplePost none (.array [sampleMessage "initialize",
      sampleMessage "tools/call"]) 0 'a') = some s := ⟨_, rfl⟩
  have hexec : exec (step sampleApp) {} [samplePost none (.array [sampleMessage "initialize",
      sampleMessage "tools/call"]) 0 'a'] = some s := by
    rw [exec, hs]
    rfl
  exact not_sound hmixed hs (h sampleApp _ s rfl (by decide) hexec)

end SmithsNet.Mcp
