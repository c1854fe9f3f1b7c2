import SmithsNet.Uas.Calls

/-!
# SmithsNet.Uas.InDialog

Re-INVITE and UPDATE inside a dialog (`smiths-sip/src/uas.rs`): the sequence
check, the session interval, offer and answer against the dialog's endpoint,
and the update of the dialog's tables.

The worker of a call handles its requests one at a time.  Wherever a handler
waits (for an address, for the media fabric), the workers of other calls and
the timers go on; what they do to the tables then is an `Interference`.  The
one thing it cannot do is write the sequence number of this dialog.
-/

namespace SmithsNet.Uas.InDialog

open Lib SmithsNet.Core Attach
open Calls (LegMedia)

/-! ## the tables -/

/-- Outcome of a successful offer/answer run. -/
structure AcceptedOffer where
  answerBody : String
  remoteMedia : Option SocketAddr
  remoteRtcp : Option SocketAddr
  srtp : Option SrtpKeys
  audioCodec : Option NegotiatedCodec
  clockRate : UInt32
  videoCodec : Option NegotiatedCodec
  ice : Option IceParams

/-- Why an offer was refused. -/
inductive OfferError
  | mismatch
  | unsupported (reason : String)
  | malformed (err : String)

/-- The media of the leg, as the offer has it. -/
def legMediaFromOffer (endpoint : UInt64) (offer : AcceptedOffer) : LegMedia where
  endpoint := endpoint
  remote := offer.remoteMedia
  rtcpPeer := offer.remoteRtcp
  srtp := offer.srtp
  clockRate := offer.clockRate

/-- What a refused request must leave alone: the dialog records, the media of
the legs, the bridges and the sessions. -/
structure Tables where
  dialogs : KeyMap DialogKey DialogRecord
  legMedia : KeyMap DialogKey LegMedia
  bridges : KeyMap DialogKey Nat
  /-- By dialog and leg. -/
  sessions : KeyMap (DialogKey × Nat) Nat

/-- Other tasks may remove the dialog; they never bring one back under its key
and never write its sequence number, as a replicated record that is applied
from the raft log would (`SmithsNet.Raft.NoLostUpdate`). -/
def KeepsCseq (key : DialogKey) (f : Tables → Tables) : Prop :=
  ∀ t r', (f t).dialogs.lookup key = some r' →
    ∃ r, t.dialogs.lookup key = some r ∧ r'.remoteCseq = r.remoteCseq

/-- What other tasks do to the tables while the dialog's worker waits. -/
def Interference (key : DialogKey) : Type := { f : Tables → Tables // KeepsCseq key f }

/-! ## requests and answers -/

structure RequestSummary where
  /-- The method is INVITE; else it is UPDATE. -/
  invite : Bool
  branch : Option String
  callId : Option String
  fromTag : Option String
  toTag : Option String
  cseq : Option UInt32
  contentType : Option String
  sessionExpires : Option UInt32 := none
  sessionRefresher : Option String := none
  minSe : Option UInt32 := none
  supportsTimer : Bool := false
  body : Option String

def RequestSummary.hasSdp (req : RequestSummary) : Bool :=
  decide (req.contentType = some "application/sdp") && req.body.isSome

structure Response where
  status : Nat
  reason : String
  tag : String
  extras : List (String × String) := []
  body : String := ""

def Response.success (r : Response) : Bool := decide (200 ≤ r.status ∧ r.status < 300)

/-- The server: its configuration and the code it calls. -/
structure Server where
  timerEnabled : Bool
  minSe : UInt32
  defaultExpires : UInt32
  contact : String
  /-- The SDP negotiator. -/
  negotiateBody : String → IpAddr → UInt16 → Except OfferError AcceptedOffer
  buildOffer : IpAddr → UInt16 → String
  /-- The bytes of a response. -/
  buildResponse : RequestSummary → Response → List UInt8

structure Endpoint where
  id : UInt64
  localAddr : SocketAddr

/-- What the outside answers while one request is handled. -/
structure Ext (key : DialogKey) where
  /-- The tag the engine draws. -/
  tag : String
  localIp : IpAddr
  whileResolving : Interference key
  allocate : Except String Endpoint
  whileAllocating : Interference key
  whileReleasing : Interference key
  whileUnbridging : Interference key
  bridge : Except String Nat
  whileBridging : Interference key

structure State (key : DialogKey) where
  tables : Tables
  /-- Endpoints the fabric holds for the dialog. -/
  endpoints : List UInt64
  /-- To-tags of accepted CANCELs, by branch. -/
  cancelledInvites : KeyMap String String
  /-- What other tasks have done since the request in hand came up. -/
  elsewhere : List (Interference key)

variable {key : DialogKey}

/-- Waiting lets other tasks go on. -/
def State.await (s : State key) (i : Interference key) : State key :=
  { s with tables := i.1 s.tables, elsewhere := s.elsewhere ++ [i] }

/-! ## the checks in front -/

def inDialogKey (req : RequestSummary) : Option DialogKey := do
  let callId ← req.callId
  let localTag ← req.toTag
  let remoteTag ← req.fromTag
  some (callId, localTag, remoteTag)

/-- The refusal of a request that is out of order; none when it may proceed. -/
def cseqRefusal (req : RequestSummary) (record : DialogRecord) : Option Response :=
  match req.cseq with
  | none => some { status := 400, reason := "Bad Request", tag := record.localTag }
  | some cseq =>
    match record.remoteCseq with
    | some prev =>
      if cseq ≤ prev then
        some { status := 500, reason := "Server Internal Error", tag := record.localTag }
      else none
    | none => none

/-- The agreed session interval, or the smallest one that would do. -/
def negotiateSessionTimer (srv : Server) (req : RequestSummary) : Except UInt32 (Option UInt32) :=
  if !srv.timerEnabled || !req.supportsTimer then .ok none
  else
    let agree (requested : UInt32) := max (max requested (req.minSe.getD 0)) srv.minSe
    match req.sessionExpires with
    | some se =>
      if se < srv.minSe then .error srv.minSe
      else if req.sessionRefresher = some "uas" then .ok none
      else .ok (some (agree se))
    | none => .ok (some (agree srv.defaultExpires))

/-- The tag of an accepted CANCEL, which is used up, or the drawn one. -/
def takeInviteTag (s : State key) (req : RequestSummary) (ext : Ext key) : String × State key :=
  match req.branch with
  | none => (ext.tag, s)
  | some b =>
    match s.cancelledInvites.lookup b with
    | some tag => (tag, { s with cancelledInvites := s.cancelledInvites.erase b })
    | none => (ext.tag, s)

def respondIntervalTooSmall (s : State key) (req : RequestSummary) (ext : Ext key) (minSe : UInt32) :
    Response × State key :=
  let (tag, s) := takeInviteTag s req ext
  ({ status := 422, reason := "Session Interval Too Small", tag := tag,
      extras := [("Min-SE", toString minSe.toNat)] }, s)

def formatWarning (code : Nat) (text : String) : String :=
  toString code ++ " smiths-net \"" ++ String.ofList (text.toList.filter (· ≠ '"')) ++ "\""

def rejectOffer (tag : String) : OfferError → Response
  | .mismatch => { status := 488, reason := "Not Acceptable Here", tag := tag }
  | .unsupported reason =>
    { status := 488, reason := "Not Acceptable Here", tag := tag,
      extras := [("Warning", formatWarning 399 reason)] }
  | .malformed _ => { status := 400, reason := "Bad Request", tag := tag }

/-! ## offer and answer -/

structure Renegotiation where
  body : String := ""
  offer : Option AcceptedOffer := none
  newEndpoint : Option Endpoint := none

def Tables.removeSessions (t : Tables) (key : DialogKey) : Tables :=
  { t with sessions := KeyMap.retain (fun k _ => decide (k.1 ≠ key)) t.sessions }

/-- The partner of a bridged dialog, when both of their legs can be bridged. -/
def Tables.rebuildPartner (t : Tables) (key : DialogKey) (bid : Nat) (new : LegMedia) :
    Option DialogKey := do
  let e ← t.bridges.entries.find? fun e => e.2 = bid ∧ e.1 ≠ key
  let peerLeg ← t.legMedia.lookup e.1
  if new.bridgeLeg.isSome && peerLeg.bridgeLeg.isSome then some e.1 else none

/-- Both legs get the new bridge. -/
def Tables.rebridge (t : Tables) (key partner : DialogKey) (bid : Nat) : Tables :=
  { t with bridges := (t.bridges.insert key bid).insert partner bid }

def Tables.unbridge (t : Tables) (key partner : DialogKey) : Tables :=
  { t with bridges := (t.bridges.erase key).erase partner }

/-- Store the renegotiated media and, when it moved, rebuild the bridge the
dialog is part of. -/
def applyLegMedia (s : State key) (k : DialogKey) (endpoint : UInt64) (offer : AcceptedOffer)
    (ext : Ext key) : State key :=
  let new := legMediaFromOffer endpoint offer
  let changed := s.tables.legMedia.lookup k ≠ some new
  let s := { s with tables := { s.tables with legMedia := s.tables.legMedia.insert k new } }
  if ¬ changed then s
  else
    match s.tables.bridges.lookup k with
    | none => { s with tables := s.tables.removeSessions k }
    | some bid =>
      match s.tables.rebuildPartner k bid new with
      | none => s
      | some partner =>
        let s := (s.await ext.whileUnbridging).await ext.whileBridging
        match ext.bridge with
        | .ok nb => { s with tables := s.tables.rebridge k partner nb }
        | .error _ => { s with tables := s.tables.unbridge k partner }

/-- The endpoint that answers the offer: the dialog's own, or a new one. -/
def answeringEndpoint (s : State key) (record : DialogRecord) (ext : Ext key) :
    Except Response (UInt64 × UInt16 × Option Endpoint) × State key :=
  match record.media, record.localMedia with
  | some id, some addr => (.ok (id, addr.port, none), s)
  | _, _ =>
    let s := s.await ext.whileAllocating
    match ext.allocate with
    | .ok ep =>
      (.ok (ep.id, ep.localAddr.port, some ep), { s with endpoints := ep.id :: s.endpoints })
    | .error _ =>
      (.error { status := 500, reason := "Server Internal Error", tag := record.localTag }, s)

/-- Give a new endpoint back. -/
def releaseNew (s : State key) (newEndpoint : Option Endpoint) (ext : Ext key) : State key :=
  match newEndpoint with
  | none => s
  | some ep => ({ s with endpoints := s.endpoints.erase ep.id }).await ext.whileReleasing

def renegotiate (srv : Server) (s : State key) (req : RequestSummary) (k : DialogKey)
    (record : DialogRecord) (ext : Ext key) : Except Response Renegotiation × State key :=
  let s := s.await ext.whileResolving
  if ¬ req.hasSdp then
    (.ok { body := (record.localMedia.map fun addr =>
      srv.buildOffer ext.localIp addr.port).getD "" }, s)
  else
    match answeringEndpoint s record ext with
    | (.error r, s) => (.error r, s)
    | (.ok (endpointId, port, newEndpoint), s) =>
      match srv.negotiateBody (req.body.getD "") ext.localIp port with
      | .ok offer =>
        (.ok { body := offer.answerBody, offer := some offer, newEndpoint := newEndpoint },
          applyLegMedia s k endpointId offer ext)
      | .error e => (.error (rejectOffer record.localTag e), releaseNew s newEndpoint ext)

/-! ## the handlers -/

/-- The record after an accepted request. -/
def updatedRecord (entry : DialogRecord) (req : RequestSummary) (r : Renegotiation)
    (timer : Option UInt32) : DialogRecord :=
  let entry := { entry with
    remoteCseq := req.cseq
    lastInviteBranch := if req.invite then req.branch else entry.lastInviteBranch
    sessionExpiresSecs := timer }
  let entry :=
    match r.newEndpoint with
    | some ep => { entry with media := some ep.id, localMedia := some ep.localAddr }
    | none => entry
  match r.offer with
  | some offer =>
    { entry with
      remoteMedia := offer.remoteMedia
      ice := offer.ice
      perLegCodec := (offer.audioCodec.map fun c => ((0 : UInt64), c)).toList ++
        (offer.videoCodec.map fun c => ((1 : UInt64), c)).toList }
  | none => entry

/-- Fold an accepted request into the dialog record, if it is still there. -/
def commitInDialogUpdate (s : State key) (k : DialogKey) (req : RequestSummary) (r : Renegotiation)
    (timer : Option UInt32) : State key :=
  match s.tables.dialogs.lookup k with
  | none => s
  | some entry =>
    { s with tables := { s.tables with
      dialogs := s.tables.dialogs.insert k (updatedRecord entry req r timer) } }

def sessionTimerHeaders : Option UInt32 → List (String × String)
  | some secs => [("Session-Expires", toString secs.toNat ++ ";refresher=uac"), ("Require", "timer")]
  | none => []

/-- A 2xx to an INVITE is parked on the record until the ACK. -/
def park2xx (srv : Server) (s : State key) (req : RequestSummary) (r : Response) : State key :=
  match req.invite, req.callId, req.fromTag with
  | true, some callId, some remoteTag =>
    match s.tables.dialogs.lookup (callId, r.tag, remoteTag) with
    | none => s
    | some entry =>
      { s with tables := { s.tables with
        dialogs := s.tables.dialogs.insert (callId, r.tag, remoteTag)
          { entry with pending2xx := some (srv.buildResponse req r) } } }
  | _, _, _ => s

/-- The 200 to an accepted request. -/
def okResponse (srv : Server) (record : DialogRecord) (r : Renegotiation) (timer : Option UInt32) :
    Response where
  status := 200
  reason := "OK"
  tag := record.localTag
  extras := [("Contact", srv.contact)] ++ sessionTimerHeaders timer ++
    (if r.body.isEmpty then [] else [("Content-Type", "application/sdp")])
  body := r.body

/-- What both handlers do once the dialog is found; `offer` says how the
request is renegotiated. -/
def handleFound (srv : Server) (s : State key) (req : RequestSummary) (k : DialogKey)
    (record : DialogRecord) (ext : Ext key)
    (offer : State key → Except Response Renegotiation × State key) : Response × State key :=
  match cseqRefusal req record with
  | some r => (r, s)
  | none =>
    match negotiateSessionTimer srv req with
    | .error minSe => respondIntervalTooSmall s req ext minSe
    | .ok timer =>
      match offer s with
      | (.error r, s) => (r, s)
      | (.ok r, s) =>
        let s := commitInDialogUpdate s k req r timer
        let response := okResponse srv record r timer
        (response, park2xx srv s req response)

def callDoesNotExist (ext : Ext key) : Response where
  status := 481
  reason := "Call/Transaction Does Not Exist"
  tag := ext.tag

/-- A re-INVITE without an offer gets the engine's own. -/
def handleReinvite (srv : Server) (s : State key) (req : RequestSummary) (ext : Ext key) :
    Response × State key :=
  match inDialogKey req with
  | none => ({ status := 400, reason := "Bad Request", tag := ext.tag }, s)
  | some k =>
    match s.tables.dialogs.lookup k with
    | none => (callDoesNotExist ext, s)
    | some record => handleFound srv s req k record ext fun s => renegotiate srv s req k record ext

/-- An UPDATE without an offer is a refresh of the session timer. -/
def handleUpdate (srv : Server) (s : State key) (req : RequestSummary) (ext : Ext key) :
    Response × State key :=
  match inDialogKey req with
  | none => (callDoesNotExist ext, s)
  | some k =>
    match s.tables.dialogs.lookup k with
    | none => (callDoesNotExist ext, s)
    | some record =>
      handleFound srv s req k record ext fun s =>
        if req.hasSdp then renegotiate srv s req k record ext else (.ok {}, s)

def handle (srv : Server) (s : State key) (req : RequestSummary) (ext : Ext key) :
    Response × State key :=
  if req.invite then handleReinvite srv s req ext else handleUpdate srv s req ext

/-! ## refused requests -/

/-- What the other tasks alone would have made of the tables. -/
def replay (is : List (Interference key)) (t : Tables) : Tables :=
  is.foldl (fun t i => i.1 t) t

/-- From `s` to `s'` only other tasks wrote the tables, and no endpoint was
kept. -/
def Untouched (s s' : State key) : Prop :=
  ∃ is, s'.elsewhere = s.elsewhere ++ is ∧ s'.tables = replay is s.tables ∧
    s'.endpoints = s.endpoints

namespace Untouched

theorem refl (s : State key) : Untouched s s := ⟨[], by simp, rfl, rfl⟩

theorem await (s : State key) (i : Interference key) : Untouched s (s.await i) :=
  ⟨[i], rfl, rfl, rfl⟩

theorem trans {s₁ s₂ s₃ : State key} (h : Untouched s₁ s₂) (h' : Untouched s₂ s₃) :
    Untouched s₁ s₃ := by
  obtain ⟨is, helse, htables, hends⟩ := h
  obtain ⟨is', helse', htables', hends'⟩ := h'
  refine ⟨is ++ is', by rw [helse', helse, List.append_assoc], ?_, hends'.trans hends⟩
  rw [htables', htables, replay, replay, replay, List.foldl_append]

end Untouched

variable {k : DialogKey} {record : DialogRecord} {ext : Ext key} {req : RequestSummary}
    {r : Response} {srv : Server} {s s' : State key} {c : UInt32}

/-- A new endpoint is in the fabric's books, the tables are as other tasks
left them. -/
theorem answeringEndpoint_ok {id : UInt64} {port : UInt16} {new : Option Endpoint}
    (h : answeringEndpoint s record ext = (.ok (id, port, new), s')) : ∃ s₁, Untouched s s₁ ∧
      s' = { s₁ with endpoints := (new.map Endpoint.id).toList ++ s₁.endpoints } := by
  unfold answeringEndpoint at h
  split at h
  · cases h
    exact ⟨s, .refl s, rfl⟩
  · split at h
    · cases h
      exact ⟨s.await ext.whileAllocating, .await s _, rfl⟩
    · cases h

/-- The answer is a refusal and nothing of the request's work is left. -/
structure Refused (s : State key) (r : Response) (s' : State key) : Prop where
  failure : r.success = false
  untouched : Untouched s s'

theorem answeringEndpoint_error
    (h : answeringEndpoint s record ext = (.error r, s')) : Refused s r s' := by
  unfold answeringEndpoint at h
  split at h
  · cases h
  · split at h
    · cases h
    · cases h
      exact ⟨rfl, .await s _⟩

theorem rejectOffer_failure (tag : String) (e : OfferError) :
    (rejectOffer tag e).success = false := by
  cases e <;> rfl

theorem untouched_releaseNew (s : State key) (new : Option Endpoint) (ext : Ext key) :
    Untouched s (releaseNew { s with
      endpoints := (new.map Endpoint.id).toList ++ s.endpoints } new ext) := by
  cases new with
  | none => exact .refl s
  | some ep =>
    unfold releaseNew
    have hends : ([ep.id] ++ s.endpoints).erase ep.id = s.endpoints := by simp
    exact ⟨[ext.whileReleasing], rfl, rfl, hends⟩

theorem renegotiate_error
    (h : renegotiate srv s req k record ext = (.error r, s')) : Refused s r s' := by
  unfold renegotiate at h
  have hwait := Untouched.await s ext.whileResolving
  dsimp only at h
  split at h
  · cases h
  · split at h
    · next r' s₁ hanswer =>
      cases h
      have hrefused := answeringEndpoint_error hanswer
      exact ⟨hrefused.failure, hwait.trans hrefused.untouched⟩
    · next id port new s₁ hanswer =>
      obtain ⟨s₂, huntouched, rfl⟩ := answeringEndpoint_ok hanswer
      split at h
      · cases h
      · cases h
        have hreleased := huntouched.trans (untouched_releaseNew s₂ new ext)
        exact ⟨rejectOffer_failure _ _, hwait.trans hreleased⟩

theorem untouched_takeInviteTag (s : State key) (req : RequestSummary) (ext : Ext key) :
    Untouched s (takeInviteTag s req ext).2 := by
  unfold takeInviteTag
  split
  · exact .refl s
  · split
    · exact ⟨[], by simp, rfl, rfl⟩
    · exact .refl s

theorem refused_intervalTooSmall (s : State key) (req : RequestSummary) (ext : Ext key)
    (minSe : UInt32) : Refused s (respondIntervalTooSmall s req ext minSe).1
      (respondIntervalTooSmall s req ext minSe).2 :=
  ⟨rfl, untouched_takeInviteTag s req ext⟩

theorem cseqRefusal_failure (h : cseqRefusal req record = some r) : r.success = false := by
  unfold cseqRefusal at h
  split at h
  · cases h
    rfl
  · split at h
    · split at h
      · cases h
        rfl
      · cases h
    · cases h

theorem cseqRefusal_none (h : cseqRefusal req record = none) :
    ∃ cseq, req.cseq = some cseq ∧ ∀ prev, record.remoteCseq = some prev → prev < cseq := by
  unfold cseqRefusal at h
  split at h
  · cases h
  · next cseq hcseq =>
    refine ⟨cseq, hcseq, ?_⟩
    intro prev hprev
    rw [hprev] at h
    by_cases hle : cseq ≤ prev
    · simp [hle] at h
    · exact UInt32.not_le.mp hle

/-! ## the sequence number -/

/-- The record of the dialog, if it is still there, has the sequence number it
had. -/
def CseqKept (key : DialogKey) (t t' : Tables) : Prop :=
  ∀ r', t'.dialogs.lookup key = some r' →
    ∃ r, t.dialogs.lookup key = some r ∧ r'.remoteCseq = r.remoteCseq

namespace CseqKept

theorem refl (t : Tables) : CseqKept key t t := fun r h => ⟨r, h, rfl⟩

theorem trans {t₁ t₂ t₃ : Tables} (h : CseqKept key t₁ t₂) (h' : CseqKept key t₂ t₃) :
    CseqKept key t₁ t₃ := by
  intro r₃ hr₃
  obtain ⟨r₂, hr₂, hcseq⟩ := h' r₃ hr₃
  obtain ⟨r₁, hr₁, hcseq'⟩ := h r₂ hr₂
  exact ⟨r₁, hr₁, hcseq.trans hcseq'⟩

theorem await (s : State key) (i : Interference key) :
    CseqKept key s.tables (s.await i).tables := i.2 s.tables

variable {t : Tables}

theorem of_dialogs_eq {t' : Tables} (h : t'.dialogs = t.dialogs) : CseqKept key t t' := by
  intro r' hr'
  rw [h] at hr'
  exact ⟨r', hr', rfl⟩

theorem insert {k : DialogKey} {entry entry' : DialogRecord}
    (hentry : t.dialogs.lookup k = some entry)
    (hcseq : k = key → entry'.remoteCseq = entry.remoteCseq) :
    CseqKept key t { t with dialogs := t.dialogs.insert k entry' } := by
  intro r' hr'
  by_cases hk : k = key
  · subst hk
    rw [AList.lookup_insert, Option.some.injEq] at hr'
    exact ⟨entry, hentry, hr' ▸ hcseq rfl⟩
  · rw [AList.lookup_insert_ne (Ne.symm hk)] at hr'
    exact ⟨r', hr', rfl⟩

end CseqKept

theorem cseqKept_replay (is : List (Interference key)) (t : Tables) :
    CseqKept key t (replay is t) := by
  induction is generalizing t with
  | nil => exact .refl t
  | cons i is ih =>
    have hfirst : CseqKept key t (i.1 t) := i.2 t
    exact hfirst.trans (ih (i.1 t))

theorem Untouched.cseqKept (h : Untouched s s') : CseqKept key s.tables s'.tables := by
  obtain ⟨is, -, htables, -⟩ := h
  rw [htables]
  exact cseqKept_replay is s.tables

theorem cseqKept_applyLegMedia (s : State key) (k : DialogKey) (endpoint : UInt64)
    (offer : AcceptedOffer) (ext : Ext key) :
    CseqKept key s.tables (applyLegMedia s k endpoint offer ext).tables := by
  unfold applyLegMedia
  dsimp only
  split
  · exact .of_dialogs_eq rfl
  · split
    · exact .of_dialogs_eq rfl
    · split
      · exact .of_dialogs_eq rfl
      · have hstored : CseqKept key s.tables { s.tables with
            legMedia := s.tables.legMedia.insert k (legMediaFromOffer endpoint offer) } :=
          .of_dialogs_eq rfl
        have hwaited := (hstored.trans (CseqKept.await { s with tables := _ }
          ext.whileUnbridging)).trans (CseqKept.await _ ext.whileBridging)
        split
        · exact hwaited.trans (.of_dialogs_eq rfl)
        · exact hwaited.trans (.of_dialogs_eq rfl)

theorem renegotiate_ok {r : Renegotiation}
    (h : renegotiate srv s req k record ext = (.ok r, s')) : CseqKept key s.tables s'.tables := by
  unfold renegotiate at h
  apply (CseqKept.await s ext.whileResolving).trans
  dsimp only at h
  split at h
  · cases h
    exact .refl _
  · split at h
    · cases h
    · next id port new s₁ hanswer =>
      obtain ⟨s₂, huntouched, rfl⟩ := answeringEndpoint_ok hanswer
      split at h
      · cases h
        exact huntouched.cseqKept.trans (cseqKept_applyLegMedia _ k id _ ext)
      · cases h

/-! ## what a handler does -/

/-- The request was accepted: its sequence number was past the record's, and
only the commit wrote a new one. -/
def Accepted (srv : Server) (s : State key) (req : RequestSummary) (r : Response)
    (s' : State key) : Prop :=
  ∃ k record reneg timer s₁, inDialogKey req = some k ∧ s.tables.dialogs.lookup k = some record ∧
    cseqRefusal req record = none ∧ CseqKept key s.tables s₁.tables ∧ r.success = true ∧
    s' = park2xx srv (commitInDialogUpdate s₁ k req reneg timer) req r

theorem handleFound_cases {offer : State key → Except Response Renegotiation × State key}
    (hkey : inDialogKey req = some k) (hrecord : s.tables.dialogs.lookup k = some record)
    (herror : ∀ r s', offer s = (.error r, s') → Refused s r s')
    (hok : ∀ r s', offer s = (.ok r, s') → CseqKept key s.tables s'.tables)
    (h : handleFound srv s req k record ext offer = (r, s')) :
    Refused s r s' ∨ Accepted srv s req r s' := by
  unfold handleFound at h
  split at h
  · next r' hrefusal =>
    cases h
    exact .inl ⟨cseqRefusal_failure hrefusal, .refl s⟩
  · next hproceed =>
    split at h
    · next minSe _ =>
      have hrefused := refused_intervalTooSmall s req ext minSe
      rw [h] at hrefused
      exact .inl hrefused
    · next timer _ =>
      split at h
      · next r' s₁ hoffer =>
        cases h
        exact .inl (herror _ _ hoffer)
      · next reneg s₁ hoffer =>
        cases h
        exact .inr ⟨k, record, reneg, timer, s₁, hkey, hrecord, hproceed, hok _ _ hoffer,
          rfl, rfl⟩

theorem handle_cases (h : handle srv s req ext = (r, s')) :
    Refused s r s' ∨ Accepted srv s req r s' := by
  unfold handle handleReinvite handleUpdate at h
  split at h
  · split at h
    · cases h
      exact .inl ⟨rfl, .refl s⟩
    · next k hkey =>
      split at h
      · cases h
        exact .inl ⟨rfl, .refl s⟩
      · next record hrecord =>
        exact handleFound_cases hkey hrecord (fun _ _ => renegotiate_error)
          (fun _ _ => renegotiate_ok) h
  · split at h
    · cases h
      exact .inl ⟨rfl, .refl s⟩
    · next k hkey =>
      split at h
      · cases h
        exact .inl ⟨rfl, .refl s⟩
      · next record hrecord =>
        apply handleFound_cases hkey hrecord _ _ h
        · intro r s' hoffer
          split at hoffer
          · exact renegotiate_error hoffer
          · cases hoffer
        · intro r s' hoffer
          split at hoffer
          · exact renegotiate_ok hoffer
          · cases hoffer
            exact .refl _

/-! ## runs -/

theorem cseqKept_park2xx (srv : Server) (s : State key) (req : RequestSummary) (r : Response) :
    CseqKept key s.tables (park2xx srv s req r).tables := by
  unfold park2xx
  split
  · split
    · exact .refl _
    · next entry hentry => exact .insert hentry fun _ => rfl
  · exact .refl _

theorem remoteCseq_updatedRecord (entry : DialogRecord) (req : RequestSummary)
    (r : Renegotiation) (timer : Option UInt32) :
    (updatedRecord entry req r timer).remoteCseq = req.cseq := by
  unfold updatedRecord
  cases r.newEndpoint <;> cases r.offer <;> rfl

theorem cseqKept_commit (req : RequestSummary)
    (r : Renegotiation) (timer : Option UInt32) (hk : k ≠ key) :
    CseqKept key s.tables (commitInDialogUpdate s k req r timer).tables := by
  unfold commitInDialogUpdate
  split
  · exact .refl _
  · next entry hentry => exact .insert hentry fun h => absurd h hk

/-- The dialog, if it is still there, has seen `c`. -/
def Above (key : DialogKey) (c : UInt32) (t : Tables) : Prop :=
  ∀ record, t.dialogs.lookup key = some record → ∃ p, record.remoteCseq = some p ∧ c ≤ p

theorem Above.of_cseqKept {t t' : Tables} (h : Above key c t)
    (hkept : CseqKept key t t') : Above key c t' := by
  intro record' hrecord'
  obtain ⟨record, hrecord, hcseq⟩ := hkept record' hrecord'
  obtain ⟨p, hp, hle⟩ := h record hrecord
  exact ⟨p, hcseq.trans hp, hle⟩

theorem above_commit (r : Renegotiation) (timer : Option UInt32) (hcseq : req.cseq = some c) :
    Above key c (commitInDialogUpdate s key req r timer).tables := by
  intro record hrecord
  unfold commitInDialogUpdate at hrecord
  split at hrecord
  · next hgone =>
    rw [hgone] at hrecord
    cases hrecord
  · next entry _ =>
    rw [AList.lookup_insert, Option.some.injEq] at hrecord
    refine ⟨c, ?_, UInt32.le_refl c⟩
    rw [← hrecord, remoteCseq_updatedRecord, hcseq]

/-- What the worker and the rest of the server do, one after the other. -/
inductive Event (key : DialogKey)
  /-- A re-INVITE or an UPDATE. -/
  | request (req : RequestSummary) (ext : Ext key)
  /-- Anything else: the worker's ACK or BYE, other calls, timers. -/
  | elsewhere (i : Interference key)

/-- A handled request, with the state it found and the one it left. -/
structure Outcome (key : DialogKey) where
  before : State key
  req : RequestSummary
  response : Response
  after : State key

def run (srv : Server) : State key → List (Event key) → List (Outcome key)
  | _, [] => []
  | s, .elsewhere i :: es => run srv { s with tables := i.1 s.tables } es
  | s, .request req ext :: es =>
    let before := { s with elsewhere := [] }
    let (r, after) := handle srv before req ext
    ⟨before, req, r, after⟩ :: run srv after es

/-- The sequence number of a request the dialog accepted. -/
def Outcome.acceptedCseq (o : Outcome key) : Option UInt32 :=
  if o.response.success ∧ inDialogKey o.req = some key then o.req.cseq else none

def acceptedCseqs (os : List (Outcome key)) : List UInt32 := os.filterMap Outcome.acceptedCseq

/-- One request: accepted, it is past all the dialog has seen and the new
bound; else every bound stays. -/
theorem handle_above (h : handle srv s req ext = (r, s')) :
    (∃ c', (Outcome.mk s req r s').acceptedCseq = some c' ∧ Above key c' s'.tables ∧
        ∀ c, Above key c s.tables → c < c') ∨
      ((Outcome.mk s req r s').acceptedCseq = none ∧
        ∀ c, Above key c s.tables → Above key c s'.tables) := by
  obtain hrefused | ⟨k, record, reneg, timer, s₁, hkey, hrecord, hproceed, hkept, hsuccess, rfl⟩ :=
    handle_cases h
  · refine .inr ⟨?_, fun c habove => habove.of_cseqKept hrefused.untouched.cseqKept⟩
    simp [Outcome.acceptedCseq, hrefused.failure]
  · obtain ⟨cseq, hcseq, hpast⟩ := cseqRefusal_none hproceed
    have hparked := cseqKept_park2xx srv (commitInDialogUpdate s₁ k req reneg timer) req r
    by_cases hk : k = key
    · subst hk
      refine .inl ⟨cseq, ?_, (above_commit reneg timer hcseq).of_cseqKept hparked, ?_⟩
      · simp [Outcome.acceptedCseq, hsuccess, hkey, hcseq]
      · intro c habove
        obtain ⟨p, hp, hle⟩ := habove record hrecord
        exact UInt32.lt_of_le_of_lt hle (hpast p hp)
    · refine .inr ⟨?_, ?_⟩
      · simp [Outcome.acceptedCseq, hkey, hk]
      · intro c habove
        have hcommitted := hkept.trans (cseqKept_commit req reneg timer hk)
        exact habove.of_cseqKept (hcommitted.trans hparked)

/-- Along a run the accepted sequence numbers rise, above what the dialog had
seen before. -/
theorem acceptedCseqs_run (srv : Server) (s : State key) (es : List (Event key)) :
    (acceptedCseqs (run srv s es)).Pairwise (· < ·) ∧
      ∀ c, Above key c s.tables → ∀ x ∈ acceptedCseqs (run srv s es), c < x := by
  induction es generalizing s with
  | nil => simp [run, acceptedCseqs]
  | cons e es ih =>
    cases e with
    | elsewhere i =>
      obtain ⟨hrise, hpast⟩ := ih { s with tables := i.1 s.tables }
      exact ⟨hrise, fun c habove => hpast c (habove.of_cseqKept (i.2 s.tables))⟩
    | request req ext =>
      obtain ⟨r, s', hhandle⟩ : ∃ r s', handle srv { s with elsewhere := [] } req ext = (r, s') :=
        ⟨_, _, rfl⟩
      obtain ⟨hrise, hpast⟩ := ih s'
      simp only [run, hhandle, acceptedCseqs, List.filterMap_cons]
      obtain ⟨c', haccepted, habove', hnew⟩ | ⟨hrefused, hkept⟩ := handle_above hhandle
      · rw [haccepted]
        refine ⟨List.pairwise_cons.mpr ⟨hpast c' habove', hrise⟩, ?_⟩
        intro c habove x hx
        obtain rfl | hx := List.mem_cons.mp hx
        · exact hnew c habove
        · exact UInt32.lt_trans (hnew c habove) (hpast c' habove' x hx)
      · rw [hrefused]
        exact ⟨hrise, fun c habove => hpast c (hkept c habove)⟩

theorem refused_of_mem_run {es : List (Event key)}
    {o : Outcome key} (ho : o ∈ run srv s es) (hfailure : o.response.success = false) :
    o.after.tables = replay o.after.elsewhere o.before.tables ∧
      o.after.endpoints = o.before.endpoints := by
  induction es generalizing s with
  | nil => cases ho
  | cons e es ih =>
    cases e with
    | elsewhere i => exact ih ho
    | request req ext =>
      obtain rfl | ho := List.mem_cons.mp ho
      · obtain hrefused | ⟨k, record, reneg, timer, s₁, -, -, -, -, hsuccess, -⟩ :=
          handle_cases (Prod.mk.eta (p := handle srv { s with elsewhere := [] } req ext)).symm
        · obtain ⟨is, helse, htables, hends⟩ := hrefused.untouched
          rw [List.nil_append] at helse
          exact ⟨helse ▸ htables, hends⟩
        · exact absurd (hsuccess.symm.trans hfailure) Bool.noConfusion
      · exact ih ho

/-- Over every run of a dialog's worker, whatever the rest of the server does
meanwhile: the accepted re-INVITEs and UPDATEs have strictly increasing
sequence numbers, and one that is refused leaves the records, the leg media,
the bridges and the sessions as the other tasks alone would have, and holds no
endpoint. -/
theorem inDialog_safe (srv : Server) (s : State key) (es : List (Event key)) :
    (acceptedCseqs (run srv s es)).Pairwise (· < ·) ∧
      ∀ o ∈ run srv s es, o.response.success = false →
        o.after.tables = replay o.after.elsewhere o.before.tables ∧
          o.after.endpoints = o.before.endpoints :=
  ⟨(acceptedCseqs_run srv s es).1, fun _ ho hfailure => refused_of_mem_run ho hfailure⟩

end SmithsNet.Uas.InDialog
