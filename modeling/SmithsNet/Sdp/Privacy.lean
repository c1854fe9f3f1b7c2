import SmithsNet.Sdp.Answers
import SmithsNet.Sdp.RoundTrip

/-!
# SmithsNet.Sdp.Privacy

The candidate filters of the privacy modes (`smiths-sdp/src/privacy.rs`), the
ways a candidate is read (`parse_candidate_line`, and the scan of an offer's
lines), and `negotiate_audio`.

An answer is well formed (`wf_answer`), so its text is parsed, stripped and
rendered again, and no host candidate is left in it
(`hidesHosts_stripAnswerHostCandidates`).
-/

namespace SmithsNet.Sdp

open Lib SmithsNet.Core
open SessionDescription (parse)

/-! ## filters -/

def DIRECTLY_REACHABLE_TYPES : List Text := ["host".toList, "srflx".toList]

inductive OfferPrivacyVerdict
  | clean
  | rejected
  deriving DecidableEq

attribute [local instance] lawfulBEq_text

/-- The types are compared letter by letter. -/
def rejectDirectCandidates (sdp : SessionDescription) : OfferPrivacyVerdict :=
  if sdp.media.any fun m => m.candidates.any fun c => decide (c.candidateType ∈ DIRECTLY_REACHABLE_TYPES) then .rejected
  else .clean

def stripHostCandidatesOn (m : MediaDescription) : MediaDescription :=
  { m with candidates := m.candidates.filter fun c => decide (c.candidateType ≠ "host".toList) }

def stripHostCandidates (sdp : SessionDescription) : SessionDescription :=
  { sdp with media := sdp.media.map stripHostCandidatesOn }

/-- The type is one of those, in some letter case. -/
def Direct (candidateType : Text) : Prop :=
  ∃ t ∈ DIRECTLY_REACHABLE_TYPES, eqIgnoreAsciiCase candidateType t = true

instance (candidateType : Text) : Decidable (Direct candidateType) :=
  inferInstanceAs (Decidable (∃ t ∈ DIRECTLY_REACHABLE_TYPES, _))

/-! ## candidates of a text -/

/-- `str::lines` -/
def strLines (s : Text) : List Text :=
  let pieces := splitBy (· == '\n') s
  let pieces := if pieces.getLast? = some [] then pieces.dropLast else pieces
  pieces.map fun l => if l.getLast? = some '\r' then l.dropLast else l

section Read

variable (conv : Conv)

def parseCandidateLine (raw : Text) : Option IceCandidate :=
  let trimmed := trim raw
  let inner := ((stripLead "a=candidate:".toList trimmed).or (stripLead "candidate:".toList trimmed)).getD trimmed
  parseCandidate conv inner

/-- The candidate lines of an offer, wherever they stand. -/
def remoteCandidates (sdpOffer : Text) : List IceCandidate :=
  ((strLines sdpOffer).filterMap (stripLead "a=candidate:".toList)).filterMap fun rest =>
    parseCandidateLine conv ("candidate:".toList ++ rest)

/-- An answer that cannot be parsed is left as it is. -/
def stripAnswerHostCandidates (answerBody : Text) : Text :=
  match parse conv answerBody with
  | .ok sdp => (stripHostCandidates sdp).toText conv
  | .error _ => answerBody

/-! ## negotiation -/

inductive NegotiationOutcome
  | accepted (answerBody : Text) (remoteMedia : Option SocketAddr) (srtp : Option SrtpKeys) (dtls : Option DtlsParams)
      (ice : Option IceParams)
  | mismatch
  | unsupportedTransport (reason : Text)
  | malformed (e : ParseError)

def firstAudioEndpoint (sdp : SessionDescription) : Option SocketAddr := do
  let audio ← sdp.media.find? fun m => decide (m.kind = .audio)
  if audio.port = 0 then none
  else
    let conn ← audio.connection.or sdp.connection
    return .new conn.address audio.port

/-- The caller's address is the one that is published. -/
def Negotiator.negotiateAudio (n : Negotiator) (fresh : Fresh) (offerBody : Text) (localIp : IpAddr)
    (localRtpPort : UInt16) :
    NegotiationOutcome :=
  match parse conv offerBody with
  | .error e => .malformed e
  | .ok offer =>
    match ({ n with localIp := localIp } : Negotiator).answer fresh offer localRtpPort with
    | .answer a => .accepted (a.sdp.toText conv) (firstAudioEndpoint offer) a.srtp a.dtls a.ice
    | .mismatch => .mismatch
    | .unsupportedTransport reason => .unsupportedTransport reason

end Read

/-! ## answers are well formed -/

/-- What is drawn can stand in a line. -/
structure Fresh.WF (fresh : Fresh) : Prop where
  sdesKey : ∀ s, (fresh.sdesKey s).length = s.keyMaterialLen
  iceUfrag : Trimmed fresh.iceUfrag
  icePwd : Trimmed fresh.icePwd

structure Negotiator.WF (n : Negotiator) : Prop where
  supported : ∀ r ∈ n.supported, r.WF
  dtlsCert : ∀ cert ∈ n.dtlsCert, Trimmed cert ∧ cert ≠ []

instance (t : Text) : Decidable (Token t) :=
  decidable_of_iff (t ≠ [] ∧ ∀ c ∈ t, isWhitespace c = false) ⟨fun h => ⟨h.1, h.2⟩, fun h => ⟨h.ne, h.plain⟩⟩

theorem wf_bundleGroups {offer : SessionDescription} (h : offer.WF) {media : List MediaDescription} {g : Group}
    (hg : g ∈ bundleGroups offer media) : g.WF := by
  have hsemantics : g.semantics = "BUNDLE".toList := by
    unfold bundleGroups at hg
    dsimp only at hg
    split at hg
    · contradiction
    · split at hg
      · contradiction
      · rw [List.mem_singleton.mp hg]
  obtain ⟨port, -, hmids⟩ := mem_bundleGroups hg
  refine ⟨hsemantics ▸ by decide, fun mid hmid => ?_⟩
  obtain ⟨offered, hoffered, hmem⟩ := List.mem_flatMap.mp (hmids mid hmid).1
  exact (h.groups offered (List.mem_of_mem_filter hoffered)).mids mid hmem

theorem wf_rejectedStream {o : MediaDescription} (h : o.WF) : (rejectedStream o).WF where
  kind := h.kind
  protocol := h.protocol
  formats := h.formats
  rtpmap := by simp [rejectedStream]
  fmtp := by simp [rejectedStream]
  crypto := by simp [rejectedStream]
  fingerprint := by simp [rejectedStream]
  iceUfrag := by simp [rejectedStream]
  icePwd := by simp [rejectedStream]
  iceOptions := by simp [rejectedStream]
  candidates := by simp [rejectedStream]
  mid := h.mid
  extmap := by simp [rejectedStream]
  rtcpFb := by simp [rejectedStream]
  t38 := by simp [rejectedStream]

theorem wf_makeHostCandidate (ip : IpAddr) (port : UInt16) : (makeHostCandidate ip port).WF where
  foundation := (by decide : Token "host0".toList)
  transport := (by decide : Token "UDP".toList)
  candidateType := (by decide : Token "host".toList)
  rawParams := by simp [makeHostCandidate]

namespace Negotiator

variable {n : Negotiator} {fresh : Fresh} {offer : SessionDescription}
    {audio : MediaDescription} {port : UInt16} {k : Keying}

/-- The attributes of a profile. -/
structure Keying.WF (k : Keying) : Prop where
  crypto : ∀ c ∈ k.crypto, c.WF
  fingerprint : ∀ f ∈ k.fingerprint, f.WF
  iceUfrag : ∀ u ∈ k.iceUfrag, Trimmed u
  icePwd : ∀ p ∈ k.icePwd, Trimmed p
  iceOptions : ∀ t ∈ k.iceOptions, Token t
  candidates : ∀ c ∈ k.candidates, c.WF ∧ c.candidateType = "host".toList

theorem wf_dtlsKeying {cert : Text} {peer : Fingerprint} (hcert : Trimmed cert ∧ cert ≠ []) (hfresh : fresh.WF) :
    (n.dtlsKeying fresh offer audio port cert peer).WF := by
  have hfingerprint : Fingerprint.WF ⟨"sha-256".toList, cert⟩ :=
    ⟨⟨(by decide : Token "sha-256".toList), hcert.1, hcert.2⟩,
      (by decide : toAsciiLowercase "sha-256".toList = "sha-256".toList)⟩
  unfold dtlsKeying
  dsimp only
  split
  · exact
      { crypto := by simp
        fingerprint := by simpa using hfingerprint
        iceUfrag := by simpa using hfresh.iceUfrag
        icePwd := by simpa using hfresh.icePwd
        iceOptions := by simpa using (by decide : Token "trickle".toList)
        candidates := by simpa using ⟨wf_makeHostCandidate n.localIp port, rfl⟩ }
  · exact ⟨by simp, by simpa using hfingerprint, by simp, by simp, by simp, by simp⟩

theorem wf_keying (hn : n.WF) (hfresh : fresh.WF) (h : n.keying fresh offer audio port = .ok k) : k.WF := by
  unfold keying at h
  split at h
  · split at h
    · contradiction
    · next cert hcert =>
      split at h
      · contradiction
      · cases h
        exact wf_dtlsKeying (hn.dtlsCert cert hcert) hfresh
  · split at h
    · split at h
      · contradiction
      · next c _ =>
        cases h
        refine ⟨?_, by simp [sdesKeying], by simp [sdesKeying], by simp [sdesKeying], by simp [sdesKeying], by simp [sdesKeying]⟩
        intro x hx
        obtain rfl := List.mem_singleton.mp hx
        exact hfresh.sdesKey c.suite
    · cases h
      exact ⟨by simp, by simp, by simp, by simp, by simp, by simp⟩

theorem wf_chooseCodec {supported : List RtpMap} {chosen : RtpMap} (haudio : audio.WF) (hsupported : ∀ r ∈ supported, r.WF)
    (h : chooseCodec audio supported = some chosen) : chosen.WF := by
  obtain ⟨pt, -, hpt⟩ := List.exists_of_findSome?_eq_some h
  split at hpt
  · next r hr =>
    obtain ⟨-, -, rfl⟩ := Option.map_eq_some_iff.mp hpt
    exact haudio.rtpmap r (List.mem_of_find?_eq_some hr)
  · exact hsupported chosen (List.mem_of_find?_eq_some hpt)

theorem wf_telephoneEventFor {chosen r : RtpMap} (haudio : audio.WF) (h : r ∈ telephoneEventFor audio chosen) : r.WF := by
  refine haudio.rtpmap r ?_
  unfold telephoneEventFor at h
  dsimp only at h
  obtain h | ⟨-, h⟩ := Option.or_eq_some_iff.mp h
  · exact List.mem_of_mem_filter (List.mem_of_find?_eq_some h)
  · exact List.mem_of_mem_filter (List.mem_of_head? h)

theorem wf_extmap_reverse {e : ExtMap} (h : e.WF) : ExtMap.WF { e with direction := e.direction.map Direction.reverse } :=
  ⟨h.uri, h.attributes, h.ne⟩

theorem wf_audioBlock {chosen : RtpMap} (haudio : audio.WF) (hchosen : chosen.WF) (hk : k.WF) :
    (audioBlock audio port chosen k).WF where
  kind := wf_kind (by decide : Token "audio".toList)
  protocol := haudio.protocol
  formats := by
    intro t ht
    obtain ⟨pt, -, rfl⟩ := List.mem_map.mp ht
    exact token_showNat _
  rtpmap := by
    intro r hr
    obtain rfl | hr := List.mem_cons.mp hr
    · exact hchosen
    · exact wf_telephoneEventFor haudio (Option.mem_toList.mp hr)
  fmtp := by
    intro f hf
    obtain ⟨pt, -, hpt⟩ := List.mem_filterMap.mp hf
    exact haudio.fmtp f (List.mem_of_find?_eq_some hpt)
  crypto := hk.crypto
  fingerprint := hk.fingerprint
  iceUfrag := hk.iceUfrag
  icePwd := hk.icePwd
  iceOptions := hk.iceOptions
  candidates := fun c hc => (hk.candidates c hc).1
  mid := haudio.mid
  extmap := by
    intro e he
    obtain ⟨offered, hoffered, rfl⟩ := List.mem_map.mp he
    exact wf_extmap_reverse (haudio.extmap offered hoffered)
  rtcpFb := fun fb hfb => haudio.rtcpFb fb (List.mem_of_mem_filter hfb)
  t38 := by simp [audioBlock, echoMediaAttributes]

theorem wf_answer {a : Answer} (hn : n.WF) (hfresh : fresh.WF) (hoffer : offer.WF)
    (h : n.answer fresh offer port = .answer a) :
    a.sdp.WF ∧ ∀ m ∈ a.sdp.media, ∀ c ∈ m.candidates, c.candidateType = "host".toList := by
  have hsession : ∀ {m : MediaDescription}, m.WF → (n.session fresh offer [m]).WF := fun hm =>
    { username := (by decide : Token "smiths".toList)
      sessionName := (⟨by decide, by decide⟩ : Plain "smiths-net".toList)
      groups := fun g hg => wf_bundleGroups hoffer hg
      media := List.forall_mem_singleton.mpr hm }
  obtain ⟨audio, haudio, ⟨-, rfl⟩ | ⟨chosen, k, -, hchosen, hkeying, rfl⟩⟩ := answer_cases h
  · refine ⟨hsession (wf_rejectedStream (hoffer.media audio (find_kind haudio).1)), fun m hm c hc => ?_⟩
    obtain rfl := List.mem_singleton.mp hm
    exact absurd hc List.not_mem_nil
  · have hwf : audio.WF := hoffer.media audio (find_kind haudio).1
    have hk : k.WF := wf_keying hn hfresh hkeying
    refine ⟨hsession (wf_audioBlock hwf (wf_chooseCodec hwf hn.supported hchosen) hk), fun m hm c hc => ?_⟩
    obtain rfl := List.mem_singleton.mp hm
    exact (hk.candidates c hc).2

end Negotiator

/-! ## stripped answers -/

variable {conv : Conv}

theorem wf_stripHostCandidates {d : SessionDescription} (h : d.WF) : (stripHostCandidates d).WF where
  username := h.username
  sessionName := h.sessionName
  groups := h.groups
  media := by
    intro m hm
    obtain ⟨block, hblock, rfl⟩ := List.mem_map.mp hm
    have hwf := h.media block hblock
    exact { hwf with candidates := fun c hc => hwf.candidates c (List.mem_of_mem_filter hc) }

/-- The text reads as a description without host candidates, in any letter case. -/
def HidesHosts (conv : Conv) (answer : Text) : Prop :=
  ∃ d, parse conv answer = .ok d ∧
    ∀ m ∈ d.media, ∀ c ∈ m.candidates, eqIgnoreAsciiCase c.candidateType "host".toList = false

theorem hidesHosts_stripAnswerHostCandidates {n : Negotiator} {fresh : Fresh}
    {offerBody answerBody : Text} {localIp : IpAddr}
    {port : UInt16} {remoteMedia : Option SocketAddr} {srtp : Option SrtpKeys}
    {dtls : Option DtlsParams} {ice : Option IceParams}
    (hn : n.WF) (hfresh : fresh.WF)
    (h : n.negotiateAudio conv fresh offerBody localIp port = .accepted answerBody remoteMedia srtp dtls ice) :
    HidesHosts conv (stripAnswerHostCandidates conv answerBody) := by
  unfold Negotiator.negotiateAudio at h
  split at h
  · contradiction
  · next offer hparse =>
    split at h
    · next a hanswer =>
      cases h
      have hscoped : ({ n with localIp := localIp } : Negotiator).WF := ⟨hn.supported, hn.dtlsCert⟩
      obtain ⟨hwf, hhosts⟩ := Negotiator.wf_answer hscoped hfresh (wf_of_parse hparse).1 hanswer
      have hback : parse conv (a.sdp.toText conv) = .ok a.sdp.reread := parse_toText hwf
      have hreread : (stripHostCandidates a.sdp.reread).WF := wf_stripHostCandidates (wf_of_parse hback).1
      refine ⟨(stripHostCandidates a.sdp.reread).reread, ?_, ?_⟩
      · unfold stripAnswerHostCandidates
        rw [hback]
        exact parse_toText hreread
      · intro m hm c hc
        obtain ⟨stripped, hstripped, rfl⟩ := List.mem_map.mp hm
        obtain ⟨reread, hreread, rfl⟩ := List.mem_map.mp hstripped
        obtain ⟨block, hblock, rfl⟩ := List.mem_map.mp hreread
        obtain ⟨hc, hkept⟩ := List.mem_filter.mp hc
        have hhost := hhosts block hblock c hc
        simp [hhost] at hkept
    · contradiction
    · contradiction

end SmithsNet.Sdp
