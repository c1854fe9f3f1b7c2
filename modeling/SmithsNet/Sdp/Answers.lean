import SmithsNet.Sdp.Negotiate

/-!
# SmithsNet.Sdp.Answers

What an answer has to do with its offer.

* `aligned_iff` — the blocks of an answer line up with those of the offer
  exactly when the offer is one audio block, or an audio block and a video
  block in this order;
* `guarded_iff` — the blocks accepted under a secure profile are keyed exactly
  when no audio block under `RTP/SAVPF` is accepted, and a video block under a
  secure profile only with the fingerprint of a DTLS-SRTP audio block.
-/

namespace SmithsNet.Sdp

open Lib SmithsNet.Core

/-- The answer to one block. -/
structure Answers (o m : MediaDescription) : Prop where
  kind : m.kind = o.kind
  protocol : m.protocol = o.protocol
  mid : m.mid = o.mid
  port : m.port ≠ 0 → o.port ≠ 0

theorem answers_rejectedStream (o : MediaDescription) : Answers o (rejectedStream o) :=
  ⟨rfl, rfl, rfl, fun h => absurd rfl h⟩

variable {a : Answer} {ms seen : List MediaDescription} {offered : List Text} {m : MediaDescription}
    {acc : Option UInt16 × List Text} {offer : SessionDescription} {protocol : Text}

theorem find_kind {k : MediaKind}
    (h : (ms.find? fun m => decide (m.kind = k)) = some m) : m ∈ ms ∧ m.kind = k :=
  ⟨List.mem_of_find?_eq_some h, by simpa using List.find?_some h⟩

namespace Negotiator

variable {n : Negotiator} {fresh : Fresh} {offer : SessionDescription} {a : Answer}

variable {port : UInt16}

/-- An answer to the audio block: declined, or keyed as its profile asks. -/
theorem answer_cases (h : n.answer fresh offer port = .answer a) :
    ∃ audio, (offer.media.find? fun m => decide (m.kind = .audio)) = some audio ∧
      ((audio.port = 0 ∧
          a = ⟨n.session fresh offer [rejectedStream audio], none, none, none⟩) ∨
        ∃ chosen k, audio.port ≠ 0 ∧ chooseCodec audio n.supported = some chosen ∧
          n.keying fresh offer audio port = .ok k ∧
          a = ⟨n.session fresh offer [audioBlock audio port chosen k], k.srtp, k.dtls, k.ice⟩) := by
  unfold answer at h
  split at h
  · contradiction
  · next audio haudio =>
    refine ⟨audio, haudio, ?_⟩
    split at h
    · next hzero =>
      cases h
      exact .inl ⟨hzero, rfl⟩
    · next hport =>
      split at h
      · contradiction
      · next chosen hchosen =>
        split at h
        · next r hkeying =>
          -- no keying fails with an answer
          subst h
          unfold keying at hkeying
          split at hkeying
          · split at hkeying
            · cases hkeying
            · split at hkeying <;> cases hkeying
          · split at hkeying
            · split at hkeying <;> cases hkeying
            · cases hkeying
        · next k hkeying =>
          cases h
          exact .inr ⟨chosen, k, hport, hchosen, hkeying, rfl⟩

theorem answers_audioBlock {audio : MediaDescription} {chosen : RtpMap} {k : Keying}
    (hkind : audio.kind = .audio) (hport : audio.port ≠ 0) :
    Answers audio (audioBlock audio port chosen k) :=
  ⟨hkind.symm, rfl, rfl, fun _ => hport⟩

/-- The video block is declined, or accepted with a port and a codec. -/
theorem videoAnswer_cases (video audioAnswer : MediaDescription) (localVideoPort : Option UInt16) :
    n.videoAnswer video audioAnswer localVideoPort = rejectedStream video ∨
      ∃ port chosen, localVideoPort = some port ∧ video.port ≠ 0 ∧
        chooseCodec video n.supportedVideo = some chosen ∧
        n.videoAnswer video audioAnswer localVideoPort = n.videoBlock video audioAnswer port chosen := by
  unfold videoAnswer
  by_cases hport : video.port = 0
  · left
    simp only [hport, if_true]
  · simp only [hport, if_false]
    cases localVideoPort with
    | none => exact .inl rfl
    | some port =>
      cases hchosen : chooseCodec video n.supportedVideo with
      | none => exact .inl rfl
      | some chosen => exact .inr ⟨port, chosen, rfl, hport, rfl, rfl⟩

theorem videoBlock_fields (video audioAnswer : MediaDescription) (port : UInt16) (chosen : RtpMap) :
    (n.videoBlock video audioAnswer port chosen).kind = .video ∧
      (n.videoBlock video audioAnswer port chosen).port = port ∧
      (n.videoBlock video audioAnswer port chosen).protocol = video.protocol ∧
      (n.videoBlock video audioAnswer port chosen).mid = video.mid ∧
      (n.videoBlock video audioAnswer port chosen).crypto = [] ∧
      (n.videoBlock video audioAnswer port chosen).fingerprint = audioAnswer.fingerprint ∧
      (n.videoBlock video audioAnswer port chosen).setup = audioAnswer.setup := by
  unfold videoBlock
  dsimp only
  split <;> exact ⟨rfl, rfl, rfl, rfl, rfl, rfl, rfl⟩

theorem answers_videoAnswer {video : MediaDescription} (hkind : video.kind = .video)
    (audioAnswer : MediaDescription) (localVideoPort : Option UInt16) :
    Answers video (n.videoAnswer video audioAnswer localVideoPort) := by
  obtain hrejected | ⟨port, chosen, -, hport, -, haccepted⟩ :=
    videoAnswer_cases (n := n) video audioAnswer localVideoPort
  · rw [hrejected]
    exact answers_rejectedStream video
  · obtain ⟨hvideo, -, hprotocol, hmid, -⟩ := videoBlock_fields (n := n) video audioAnswer port chosen
    rw [haccepted]
    exact ⟨hvideo.trans hkind.symm, hprotocol, hmid, fun _ => hport⟩

theorem answerWithVideo_cases {audioPort : UInt16} {videoPort : Option UInt16}
    (h : n.answerWithVideo fresh offer audioPort videoPort = .answer a) :
    ∃ a₀ audio m, n.answer fresh offer audioPort = .answer a₀ ∧
      (offer.media.find? fun m => decide (m.kind = .audio)) = some audio ∧ Answers audio m ∧
      a.srtp = a₀.srtp ∧ a.dtls = a₀.dtls ∧ a₀.sdp.media = [m] ∧
      a.sdp.groups = bundleGroups offer a.sdp.media ∧
      (((offer.media.find? fun m => decide (m.kind = .video)) = none ∧ a.sdp.media = [m]) ∨
        ∃ video, (offer.media.find? fun m => decide (m.kind = .video)) = some video ∧
          a.sdp.media = [m, n.videoAnswer video m videoPort]) := by
  unfold answerWithVideo at h
  cases hanswer : n.answer fresh offer audioPort with
  | mismatch =>
    rw [hanswer] at h
    contradiction
  | unsupportedTransport reason =>
    rw [hanswer] at h
    contradiction
  | answer a₀ =>
    rw [hanswer] at h
    obtain ⟨audio, haudio, hcases⟩ := answer_cases hanswer
    have hkind := (find_kind haudio).2
    obtain ⟨m, hmedia, hanswers, hgroups⟩ : ∃ m, a₀.sdp.media = [m] ∧ Answers audio m ∧
        a₀.sdp.groups = bundleGroups offer a₀.sdp.media := by
      obtain ⟨-, rfl⟩ | ⟨chosen, k, hport, -, -, rfl⟩ := hcases
      · exact ⟨_, rfl, answers_rejectedStream audio, rfl⟩
      · exact ⟨_, rfl, answers_audioBlock hkind hport, rfl⟩
    refine ⟨a₀, audio, m, rfl, haudio, hanswers, ?_⟩
    simp only [hmedia, List.head?_cons] at h
    cases hvideo : offer.media.find? fun m => decide (m.kind = .video) with
    | none =>
      rw [hvideo] at h
      cases h
      exact ⟨rfl, rfl, hmedia, hgroups, .inl ⟨rfl, hmedia⟩⟩
    | some video =>
      rw [hvideo] at h
      cases h
      exact ⟨rfl, rfl, hmedia, rfl, .inr ⟨video, rfl, rfl⟩⟩

end Negotiator

/-! ## alignment -/

/-- The blocks of an answer line up with those of the offer. -/
structure Aligned (offer sdp : SessionDescription) : Prop where
  count : sdp.media.length = offer.media.length
  blocks : ∀ (i : Nat) (o m : MediaDescription), offer.media[i]? = some o →
    sdp.media[i]? = some m → Answers o m
  /-- A block without a codec is declined. -/
  declined : ∀ m ∈ sdp.media, m.rtpmap = [] → m.port = 0
  bundle : ∀ g ∈ sdp.groups, ∃ port, port ≠ 0 ∧ ∀ mid ∈ g.mids, mid ∈ offer.bundleMids ∧
    ∃ m ∈ sdp.media, m.mid = some mid ∧ m.port = port

/-- What a BUNDLE group has collected from the first blocks. -/
structure Collected (offered : List Text) (seen : List MediaDescription)
    (acc : Option UInt16 × List Text) : Prop where
  unanchored : acc.1 = none → acc.2 = []
  anchored : ∀ port, acc.1 = some port → port ≠ 0 ∧ ∀ mid ∈ acc.2, mid ∈ offered ∧
    ∃ m ∈ seen, m.mid = some mid ∧ m.port = port

section

variable (h : Collected offered seen acc)
include h

theorem Collected.later (m : MediaDescription) : Collected offered (seen ++ [m]) acc where
  unanchored := h.unanchored
  anchored port hport := by
    obtain ⟨hne, hmids⟩ := h.anchored port hport
    refine ⟨hne, fun mid hmid => ?_⟩
    obtain ⟨hoffered, m', hm', hrest⟩ := hmids mid hmid
    exact ⟨hoffered, m', List.mem_append_left _ hm', hrest⟩

theorem Collected.step (m : MediaDescription) :
    Collected offered (seen ++ [m]) (bundleStep offered acc m) := by
  have hlater := h.later m
  have hself : m ∈ seen ++ [m] := List.mem_append_right _ (List.mem_singleton.mpr rfl)
  unfold bundleStep
  split
  · exact hlater
  · next hport =>
    split
    · exact hlater
    · next mid hmid =>
      split
      · exact hlater
      · next hoffered =>
        split
        · next hnone =>
          refine ⟨by simp, fun port heq => ?_⟩
          obtain rfl := Option.some.inj heq
          refine ⟨hport, fun x hx => ?_⟩
          rw [h.unanchored hnone, List.nil_append, List.mem_singleton] at hx
          subst hx
          exact ⟨not_not.mp hoffered, m, hself, hmid, rfl⟩
        · next p hanchor =>
          split
          · next hsame =>
            refine ⟨by simp [hanchor], fun port heq => ?_⟩
            obtain rfl : p = port := Option.mem_unique hanchor heq
            obtain ⟨hne, hmids⟩ := hlater.anchored p hanchor
            refine ⟨hne, fun x hx => ?_⟩
            obtain hx | hx := List.mem_append.mp hx
            · exact hmids x hx
            · obtain rfl := List.mem_singleton.mp hx
              exact ⟨not_not.mp hoffered, m, hself, hmid, hsame.symm⟩
          · exact hlater

theorem collected_foldl (ms : List MediaDescription) :
    Collected offered (seen ++ ms) (ms.foldl (bundleStep offered) acc) := by
  induction ms generalizing seen acc with
  | nil => simpa using h
  | cons m ms ih =>
    have hrest := ih (h.step m)
    simpa using hrest

end

theorem mem_bundleGroups {g : Group} (h : g ∈ bundleGroups offer ms) :
    ∃ port, port ≠ 0 ∧ ∀ mid ∈ g.mids, mid ∈ offer.bundleMids ∧
      ∃ m ∈ ms, m.mid = some mid ∧ m.port = port := by
  have hcollected : Collected offer.bundleMids ms
      (ms.foldl (bundleStep offer.bundleMids) (none, [])) := by
    have hnil : Collected offer.bundleMids [] (none, []) := ⟨fun _ => rfl, by simp⟩
    simpa using collected_foldl hnil ms
  unfold bundleGroups at h
  dsimp only at h
  split at h
  · simp at h
  · split at h
    · simp at h
    · next hmids =>
      obtain rfl := List.mem_singleton.mp h
      cases hanchor : (ms.foldl (bundleStep offer.bundleMids) (none, [])).1 with
      | none => exact absurd (hcollected.unanchored hanchor) hmids
      | some port => exact ⟨port, hcollected.anchored port hanchor⟩

theorem rtpmap_videoBlock (n : Negotiator) (video audioAnswer : MediaDescription) (port : UInt16)
    (chosen : RtpMap) : (n.videoBlock video audioAnswer port chosen).rtpmap = [chosen] := by
  unfold Negotiator.videoBlock
  dsimp only
  split <;> rfl

theorem declined_answerWithVideo {n : Negotiator} {fresh : Fresh}
    {audioPort : UInt16} {videoPort : Option UInt16}
    (h : n.answerWithVideo fresh offer audioPort videoPort = .answer a) :
    ∀ m ∈ a.sdp.media, m.rtpmap = [] → m.port = 0 := by
  obtain ⟨a₀, audio, m, hanswer, -, -, -, -, hmedia, -, hblocks⟩ :=
    Negotiator.answerWithVideo_cases h
  have hfirst : m.rtpmap = [] → m.port = 0 := by
    obtain ⟨audio, -, ⟨-, rfl⟩ | ⟨chosen, k, -, -, -, rfl⟩⟩ := Negotiator.answer_cases hanswer
    · obtain rfl : rejectedStream audio = m := (List.cons.inj hmedia).1
      exact fun _ => rfl
    · obtain rfl : Negotiator.audioBlock audio audioPort chosen k = m :=
        (List.cons.inj hmedia).1
      intro hnil
      simp [Negotiator.audioBlock, echoMediaAttributes] at hnil
  have hsecond : ∀ video, (n.videoAnswer video m videoPort).rtpmap = [] →
      (n.videoAnswer video m videoPort).port = 0 := by
    intro video
    obtain hrejected | ⟨port, chosen, -, -, -, haccepted⟩ :=
      Negotiator.videoAnswer_cases (n := n) video m videoPort
    · rw [hrejected]
      exact fun _ => rfl
    · rw [haccepted, rtpmap_videoBlock]
      intro hnil
      contradiction
  obtain ⟨-, hone⟩ | ⟨video, -, htwo⟩ := hblocks
  · rw [hone]
    simpa using hfirst
  · rw [htwo]
    simpa using ⟨hfirst, hsecond video⟩

/-- The kinds of the blocks. -/
def kinds (d : SessionDescription) : List MediaKind := d.media.map MediaDescription.kind

theorem Aligned.kinds_eq {sdp : SessionDescription} (h : Aligned offer sdp) :
    kinds offer = kinds sdp := by
  apply List.ext_getElem (by simpa [kinds] using h.count.symm)
  intro i hi hi'
  simp only [kinds, List.length_map] at hi hi'
  have hanswers := h.blocks i _ _ (List.getElem?_eq_getElem hi) (List.getElem?_eq_getElem hi')
  simpa [kinds] using hanswers.kind.symm

theorem aligned_iff (n : Negotiator) (fresh : Fresh) (offer : SessionDescription)
    (audioPort : UInt16) (videoPort : Option UInt16) (a : Answer)
    (h : n.answerWithVideo fresh offer audioPort videoPort = .answer a) :
    Aligned offer a.sdp ↔ kinds offer = [.audio] ∨ kinds offer = [.audio, .video] := by
  have hdeclined := declined_answerWithVideo h
  obtain ⟨a₀, audio, m, -, haudio, hanswers, -, -, -, hgroups, hblocks⟩ :=
    Negotiator.answerWithVideo_cases h
  have hbundle := fun g (hg : g ∈ a.sdp.groups) => mem_bundleGroups (hgroups ▸ hg)
  have hkind : m.kind = .audio := hanswers.kind.trans (find_kind haudio).2
  constructor
  · intro haligned
    rw [haligned.kinds_eq]
    obtain ⟨-, hone⟩ | ⟨video, hvideo, htwo⟩ := hblocks
    · left
      simp [kinds, hone, hkind]
    · have hvideoKind := (find_kind hvideo).2
      have hkind' := (Negotiator.answers_videoAnswer (n := n) hvideoKind m videoPort).kind
      right
      simp [kinds, htwo, hkind, hkind', hvideoKind]
  · rintro (hkinds | hkinds)
    · obtain ⟨x, hx, hxkind⟩ := List.map_eq_singleton_iff.mp hkinds
      obtain ⟨-, hone⟩ | ⟨video, hvideo, -⟩ := hblocks
      · obtain rfl : x = audio := by simpa [hx, hxkind] using haudio
        refine ⟨by rw [hx, hone]; rfl, ?_, hdeclined, hbundle⟩
        intro i o m' ho hm'
        rw [hx] at ho
        rw [hone] at hm'
        cases i with
        | zero =>
          cases ho
          cases hm'
          exact hanswers
        | succ i => simp at ho
      · simp [hx, hxkind] at hvideo
    · obtain ⟨x, rest, hx, hxkind, hrest⟩ := List.map_eq_cons_iff.mp hkinds
      obtain ⟨y, rfl, hykind⟩ := List.map_eq_singleton_iff.mp hrest
      obtain ⟨hnone, -⟩ | ⟨video, hvideo, htwo⟩ := hblocks
      · simp [hx, hxkind, hykind] at hnone
      · obtain rfl : x = audio := by simpa [hx, hxkind] using haudio
        obtain rfl : y = video := by simpa [hx, hxkind, hykind] using hvideo
        refine ⟨by rw [hx, htwo]; rfl, ?_, hdeclined, hbundle⟩
        intro i o m' ho hm'
        rw [hx] at ho
        rw [htwo] at hm'
        match i with
        | 0 =>
          cases ho
          cases hm'
          exact hanswers
        | 1 =>
          cases ho
          cases hm'
          exact Negotiator.answers_videoAnswer hykind m videoPort
        | i + 2 => simp at ho

/-- Audio and video in a bundle. -/
def sampleBundle : List String :=
  ["a=group:BUNDLE 0 1", "m=audio 4000 RTP/AVP 0", "a=mid:0", "m=video 4002 RTP/AVP 97", "a=mid:1",
    "a=rtpmap:97 VP8/90000"]

theorem aligned_sampleBundle :
    ∃ x, sampleNegotiated sampleBundle = some x ∧ x.1.media.length = 2 ∧ Aligned x.1 x.2.sdp := by
  have hkinds : (sampleNegotiated sampleBundle).map (fun x => kinds x.1) = some [.audio, .video] := by
    rw [sampleNegotiated, sampleText_of (show sampleBundle.map String.toList = _ from
      map_ofList_cons <| map_ofList_cons <| map_ofList_cons <| map_ofList_cons <| map_ofList_cons <| map_ofList_cons
      <| List.map_nil)]
    decide +kernel
  obtain ⟨x, hx, hkinds⟩ := Option.map_eq_some_iff.mp hkinds
  obtain ⟨-, hanswer⟩ := negotiated_eq_some hx
  refine ⟨x, hx, ?_, (aligned_iff _ _ _ _ _ _ hanswer).mpr (.inr hkinds)⟩
  simpa [kinds] using congrArg List.length hkinds

/-- The video block comes first: the answer has it second. -/
theorem misaligned_video_first :
    ¬ ∀ (conv : Conv) (s : Text) (n : Negotiator) (fresh : Fresh) (offer : SessionDescription)
      (audioPort : UInt16) (videoPort : Option UInt16) (a : Answer),
      SessionDescription.parse conv s = .ok offer →
      n.answerWithVideo fresh offer audioPort videoPort = .answer a → Aligned offer a.sdp := by
  intro h
  let lines := ["m=video 4002 RTP/AVP 97", "a=rtpmap:97 VP8/90000", "m=audio 4000 RTP/AVP 0"]
  have hkinds : (sampleNegotiated lines).map (fun x => (kinds x.1, kinds x.2.sdp)) =
      some ([.video, .audio], [.audio, .video]) := by
    rw [sampleNegotiated, sampleText_of (show lines.map String.toList = _ from
      map_ofList_cons <| map_ofList_cons <| map_ofList_cons <| List.map_nil)]
    decide +kernel
  obtain ⟨x, hx, hkinds⟩ := Option.map_eq_some_iff.mp hkinds
  obtain ⟨hoffer, hsdp⟩ := Prod.mk.inj hkinds
  obtain ⟨hparse, hanswer⟩ := negotiated_eq_some hx
  have haligned := h _ _ _ _ _ _ _ _ hparse hanswer
  have hsame := haligned.kinds_eq
  rw [hoffer, hsdp] at hsame
  contradiction

/-! ## protection -/

attribute [local instance] lawfulBEq_text

/-- The profiles of secure RTP. -/
def isSecureProfile (protocol : Text) : Bool :=
  decide (toAsciiUppercase protocol ∈ ["RTP/SAVP".toList, "RTP/SAVPF".toList,
    "UDP/TLS/RTP/SAVP".toList, "UDP/TLS/RTP/SAVPF".toList])

/-- The accepted block `m` for the offered block `o` is keyed: by SDES with the
returned keys, or by DTLS with the block's own fingerprint. -/
def Keyed (a : Answer) (o m : MediaDescription) : Prop :=
  (∃ c ∈ m.crypto, ∃ oc ∈ o.crypto, c.tag = oc.tag ∧ c.suite = oc.suite ∧
    a.srtp = some ⟨c.suite, oc.keyMaterial, c.keyMaterial⟩) ∨
  (m.fingerprint.isSome = true ∧ (m.setup = some .active ∨ m.setup = some .passive) ∧
    ∃ fp role, o.fingerprint = some fp ∧ a.dtls = some ⟨fp.algorithm, fp.value, role⟩)

/-- Every block that is accepted under a secure profile is keyed. -/
def Guarded (offer : SessionDescription) (a : Answer) : Prop :=
  ∀ m ∈ a.sdp.media, m.port ≠ 0 → isSecureProfile m.protocol = true →
    ∃ o, (offer.media.find? fun o => decide (o.kind = m.kind)) = some o ∧ Keyed a o m

/-- The audio block: `RTP/SAVPF` is not taken for a profile of SDES. -/
def AudioGuarded (offer : SessionDescription) (audioPort : UInt16) : Prop :=
  ∀ audio, (offer.media.find? fun m => decide (m.kind = .audio)) = some audio →
    audio.port ≠ 0 → audioPort ≠ 0 → toAsciiUppercase audio.protocol ≠ "RTP/SAVPF".toList

/-- The video block, when it is one that is accepted: it has the identity of a
DTLS-SRTP audio block. -/
def VideoGuarded (n : Negotiator) (offer : SessionDescription) (videoPort : Option UInt16) : Prop :=
  ∀ video port, (offer.media.find? fun m => decide (m.kind = .video)) = some video →
    video.port ≠ 0 → videoPort = some port → port ≠ 0 →
    (chooseCodec video n.supportedVideo).isSome = true → isSecureProfile video.protocol = true →
    ∃ audio, (offer.media.find? fun m => decide (m.kind = .audio)) = some audio ∧ audio.port ≠ 0 ∧
      isDtlsSrtpProfile audio.protocol = true ∧ video.fingerprint = audio.fingerprint

theorem isSavpProfile_iff (protocol : Text) :
    isSavpProfile protocol = true ↔ toAsciiUppercase protocol = "RTP/SAVP".toList := by
  have hupper : toAsciiUppercase "RTP/SAVP".toList = "RTP/SAVP".toList := by decide
  rw [isSavpProfile, eqIgnoreAsciiCase_iff, hupper]

theorem isSecureProfile_of_plain (hdtls : isDtlsSrtpProfile protocol = false)
    (hsavp : isSavpProfile protocol = false) :
    isSecureProfile protocol = true ↔ toAsciiUppercase protocol = "RTP/SAVPF".toList := by
  have hnot : toAsciiUppercase protocol ≠ "RTP/SAVP".toList := by
    rw [Ne, ← isSavpProfile_iff, hsavp]
    decide
  simp only [isDtlsSrtpProfile, Bool.or_eq_false_iff, decide_eq_false_iff_not] at hdtls
  simp only [isSecureProfile, decide_eq_true_eq, List.mem_cons, List.not_mem_nil, hnot, hdtls.1,
    hdtls.2, false_or, or_false]

theorem ne_savpf (h : isDtlsSrtpProfile protocol = true ∨ isSavpProfile protocol = true) :
    toAsciiUppercase protocol ≠ "RTP/SAVPF".toList := by
  intro heq
  rw [isSavpProfile_iff, isDtlsSrtpProfile, heq] at h
  revert h
  decide

namespace Negotiator

variable {n : Negotiator} {fresh : Fresh} {offer : SessionDescription} {audio : MediaDescription}
  {port : UInt16} {k : Keying}

theorem dtlsKeying_fields (n : Negotiator) (fresh : Fresh) (offer : SessionDescription)
    (audio : MediaDescription) (port : UInt16) (cert : Text) (peer : Fingerprint) :
    (n.dtlsKeying fresh offer audio port cert peer).fingerprint = some ⟨"sha-256".toList, cert⟩ ∧
      ((n.dtlsKeying fresh offer audio port cert peer).setup = some .active ∨
        (n.dtlsKeying fresh offer audio port cert peer).setup = some .passive) ∧
      ∃ role, (n.dtlsKeying fresh offer audio port cert peer).dtls =
        some ⟨peer.algorithm, peer.value, role⟩ := by
  have hsetup : ∀ s : DtlsSetup, s.reverse = .active ∨ s.reverse = .passive := by
    intro s
    cases s <;> decide
  have hcases := hsetup (audio.setup.getD .actPass)
  unfold dtlsKeying
  dsimp only
  split <;> exact ⟨rfl, hcases.imp (congrArg some) (congrArg some), _, rfl⟩

theorem keying_cases (h : n.keying fresh offer audio port = .ok k) :
    (isDtlsSrtpProfile audio.protocol = true ∧ ∃ peer role, audio.fingerprint = some peer ∧
        k.fingerprint.isSome = true ∧ (k.setup = some .active ∨ k.setup = some .passive) ∧
        k.dtls = some ⟨peer.algorithm, peer.value, role⟩) ∨
      (isDtlsSrtpProfile audio.protocol = false ∧ isSavpProfile audio.protocol = true ∧
        ∃ c, audio.crypto.head? = some c ∧ k = sdesKeying fresh c) ∨
      (isDtlsSrtpProfile audio.protocol = false ∧ isSavpProfile audio.protocol = false ∧ k = {}) := by
  unfold keying at h
  split at h
  · next hdtls =>
    split at h
    · contradiction
    · next cert hcert =>
      split at h
      · contradiction
      · next peer hpeer =>
        cases h
        obtain ⟨hfp, hsetup, role, hparams⟩ :=
          dtlsKeying_fields n fresh offer audio port cert peer
        exact .inl ⟨hdtls, peer, role, hpeer, by rw [hfp]; rfl, hsetup, hparams⟩
  · next hdtls =>
    simp only [Bool.not_eq_true] at hdtls
    split at h
    · next hsavp =>
      split at h
      · contradiction
      · next c hc =>
        cases h
        exact .inr (.inl ⟨hdtls, hsavp, c, hc, rfl⟩)
    · next hsavp =>
      cases h
      exact .inr (.inr ⟨hdtls, by simpa using hsavp, rfl⟩)

/-- The audio answer: declined, keyed by DTLS, keyed by SDES, or plain. -/
theorem audioAnswer_cases {a : Answer} {m : MediaDescription}
    (h : n.answer fresh offer port = .answer a)
    (haudio : (offer.media.find? fun m => decide (m.kind = .audio)) = some audio)
    (hmedia : a.sdp.media = [m]) : (audio.port = 0 ∧ m.port = 0 ∧ m.fingerprint = none) ∨
      (audio.port ≠ 0 ∧ m.port = port ∧
        ((isDtlsSrtpProfile audio.protocol = true ∧ m.fingerprint.isSome = true ∧
            (m.setup = some .active ∨ m.setup = some .passive) ∧ ∃ fp role,
              audio.fingerprint = some fp ∧ a.dtls = some ⟨fp.algorithm, fp.value, role⟩) ∨
          (isDtlsSrtpProfile audio.protocol = false ∧ isSavpProfile audio.protocol = true ∧
            m.fingerprint = none ∧ ∃ c ∈ m.crypto, ∃ oc ∈ audio.crypto, c.tag = oc.tag ∧
              c.suite = oc.suite ∧ a.srtp = some ⟨c.suite, oc.keyMaterial, c.keyMaterial⟩) ∨
          (isDtlsSrtpProfile audio.protocol = false ∧ isSavpProfile audio.protocol = false ∧
            m.crypto = [] ∧ m.fingerprint = none))) := by
  obtain ⟨audio', haudio', hcases⟩ := answer_cases h
  obtain rfl : audio = audio' := Option.mem_unique haudio haudio'
  obtain ⟨hzero, rfl⟩ | ⟨chosen, k, hport, -, hkeying, rfl⟩ := hcases
  · obtain rfl : rejectedStream audio = m := (List.cons.inj hmedia).1
    exact .inl ⟨hzero, rfl, rfl⟩
  · obtain rfl : audioBlock audio port chosen k = m := (List.cons.inj hmedia).1
    refine .inr ⟨hport, rfl, ?_⟩
    obtain ⟨hdtls, peer, role, hpeer, hfp, hsetup, hparams⟩ | ⟨hdtls, hsavp, c, hc, rfl⟩ |
      ⟨hdtls, hsavp, rfl⟩ := keying_cases hkeying
    · exact .inl ⟨hdtls, hfp, hsetup, peer, role, hpeer, hparams⟩
    · refine .inr (.inl ⟨hdtls, hsavp, rfl, ⟨c.tag, c.suite, fresh.sdesKey c.suite⟩, ?_, c,
        List.mem_of_head? hc, rfl, rfl, rfl⟩)
      exact List.mem_singleton.mpr rfl
    · exact .inr (.inr ⟨hdtls, hsavp, rfl, rfl⟩)

end Negotiator

theorem not_keyed {o : MediaDescription} (hcrypto : m.crypto = [])
    (hfp : m.fingerprint = none) : ¬ Keyed a o m := by
  rintro (⟨c, hc, -⟩ | ⟨hsome, -⟩)
  · simp [hcrypto] at hc
  · simp [hfp] at hsome

section Guarded

variable {n : Negotiator} {fresh : Fresh} {offer : SessionDescription} {audioPort : UInt16}
  {a a₀ : Answer} {audio video m : MediaDescription}

theorem audioGuarded_iff (hanswer : n.answer fresh offer audioPort = .answer a₀)
    (haudio : (offer.media.find? fun m => decide (m.kind = .audio)) = some audio)
    (hmedia : a₀.sdp.media = [m]) (hanswers : Answers audio m) (hsrtp : a.srtp = a₀.srtp)
    (hdtls : a.dtls = a₀.dtls) : (m.port ≠ 0 → isSecureProfile m.protocol = true →
        ∃ o, (offer.media.find? fun o => decide (o.kind = m.kind)) = some o ∧ Keyed a o m) ↔
      AudioGuarded offer audioPort := by
  have hfind : (offer.media.find? fun o => decide (o.kind = m.kind)) = some audio := by
    rw [hanswers.kind, (find_kind haudio).2]
    exact haudio
  rw [hanswers.protocol]
  obtain ⟨hzero, hport, -⟩ | ⟨hne, hport, hprofile⟩ :=
    Negotiator.audioAnswer_cases hanswer haudio hmedia
  · constructor
    · intro _ audio' haudio' hne
      obtain rfl : audio = audio' := Option.mem_unique haudio haudio'
      exact absurd hzero hne
    · exact fun _ hne => absurd hport hne
  · have hsame : AudioGuarded offer audioPort ↔
        (audioPort ≠ 0 → toAsciiUppercase audio.protocol ≠ "RTP/SAVPF".toList) := by
      simp [AudioGuarded, haudio, hne]
    rw [hsame, hport]
    obtain ⟨hprofile, hfp, hsetup, hparams⟩ | ⟨-, hprofile, -, hkeys⟩ |
      ⟨hnot, hnot', hcrypto, hfp⟩ := hprofile
    · rw [← hdtls] at hparams
      exact ⟨fun _ _ => ne_savpf (.inl hprofile),
        fun _ _ _ => ⟨audio, hfind, .inr ⟨hfp, hsetup, hparams⟩⟩⟩
    · rw [← hsrtp] at hkeys
      exact ⟨fun _ _ => ne_savpf (.inr hprofile), fun _ _ _ => ⟨audio, hfind, .inl hkeys⟩⟩
    · rw [isSecureProfile_of_plain hnot hnot']
      constructor
      · intro hkeyed hne heq
        obtain ⟨o, -, hkeyed⟩ := hkeyed hne heq
        exact not_keyed hcrypto hfp hkeyed
      · intro hok hne heq
        exact absurd heq (hok hne)

theorem videoGuarded_iff (hanswer : n.answer fresh offer audioPort = .answer a₀)
    (haudio : (offer.media.find? fun m => decide (m.kind = .audio)) = some audio)
    (hmedia : a₀.sdp.media = [m]) (hdtls : a.dtls = a₀.dtls)
    (hvideo : (offer.media.find? fun m => decide (m.kind = .video)) = some video)
    (videoPort : Option UInt16) : ((n.videoAnswer video m videoPort).port ≠ 0 →
        isSecureProfile (n.videoAnswer video m videoPort).protocol = true →
        ∃ o, (offer.media.find? fun o => decide (o.kind = (n.videoAnswer video m videoPort).kind)) =
          some o ∧ Keyed a o (n.videoAnswer video m videoPort)) ↔
      VideoGuarded n offer videoPort := by
  obtain hrejected | ⟨port, chosen, hport, hne, hchosen, haccepted⟩ :=
    Negotiator.videoAnswer_cases (n := n) video m videoPort
  · rw [hrejected]
    refine ⟨fun _ video' port hvideo' hne hport hportNe hsome _ => ?_, fun _ hne => absurd rfl hne⟩
    -- a block that can be accepted is not declined
    obtain rfl : video = video' := Option.mem_unique hvideo hvideo'
    obtain ⟨chosen, hchosen⟩ := Option.isSome_iff_exists.mp hsome
    have hblock : n.videoAnswer video m videoPort = n.videoBlock video m port chosen := by
      simp [Negotiator.videoAnswer, hport, hne, hchosen]
    obtain ⟨-, hblockPort, -⟩ := Negotiator.videoBlock_fields (n := n) video m port chosen
    rw [← hblock, hrejected] at hblockPort
    exact absurd hblockPort.symm hportNe
  · obtain ⟨hkind, hblockPort, hprotocol, -, hcrypto, hfp, hsetup⟩ :=
      Negotiator.videoBlock_fields (n := n) video m port chosen
    have hsame : VideoGuarded n offer videoPort ↔ (port ≠ 0 → isSecureProfile video.protocol = true →
        audio.port ≠ 0 ∧ isDtlsSrtpProfile audio.protocol = true ∧
          video.fingerprint = audio.fingerprint) := by
      simp [VideoGuarded, hvideo, haudio, hne, hport, hchosen]
    rw [haccepted, hblockPort, hprotocol, hkind, hvideo, hsame]
    refine forall_congr' fun hportNe => forall_congr' fun hsecure => ?_
    constructor
    · rintro ⟨o, ho, hkeyed⟩
      obtain rfl := Option.some.inj ho
      obtain ⟨c, hc, -⟩ | ⟨hsome, -, fp, role, hvideoFp, hparams⟩ := hkeyed
      · simp [hcrypto] at hc
      · rw [hfp] at hsome
        obtain ⟨-, -, hnone⟩ | ⟨hne', -, ⟨hprofile, -, -, fp', role', haudioFp, hparams'⟩ |
          ⟨-, -, hnone, -⟩ | ⟨-, -, -, hnone⟩⟩ :=
          Negotiator.audioAnswer_cases hanswer haudio hmedia
        · simp [hnone] at hsome
        · rw [hdtls, hparams'] at hparams
          refine ⟨hne', hprofile, ?_⟩
          obtain ⟨halgorithm, hvalue, -⟩ : fp'.algorithm = fp.algorithm ∧ fp'.value = fp.value ∧
              role' = role := by simpa using hparams
          have hequal : fp' = fp := by
            cases fp
            cases fp'
            simp_all
          rw [hvideoFp, haudioFp, hequal]
        · simp [hnone] at hsome
        · simp [hnone] at hsome
    · rintro ⟨hne', hprofile, hequal⟩
      refine ⟨video, rfl, .inr ?_⟩
      obtain ⟨hzero, -⟩ | ⟨-, -, ⟨-, hsome, hsetup', fp, role, haudioFp, hparams⟩ |
        ⟨hnot, -⟩ | ⟨hnot, -⟩⟩ := Negotiator.audioAnswer_cases hanswer haudio hmedia
      · exact absurd hzero hne'
      · rw [← hfp] at hsome
        rw [← hsetup] at hsetup'
        exact ⟨hsome, hsetup', fp, role, hequal.trans haudioFp, hdtls.trans hparams⟩
      · rw [hprofile] at hnot
        contradiction
      · rw [hprofile] at hnot
        contradiction

end Guarded

theorem guarded_iff (n : Negotiator) (fresh : Fresh) (offer : SessionDescription)
    (audioPort : UInt16) (videoPort : Option UInt16) (a : Answer)
    (h : n.answerWithVideo fresh offer audioPort videoPort = .answer a) :
    Guarded offer a ↔ AudioGuarded offer audioPort ∧ VideoGuarded n offer videoPort := by
  obtain ⟨a₀, audio, m, hanswer, haudio, hanswers, hsrtp, hdtls, hmedia, -, hblocks⟩ :=
    Negotiator.answerWithVideo_cases h
  have haudioIff := audioGuarded_iff (a := a) hanswer haudio hmedia hanswers hsrtp hdtls
  obtain ⟨hnone, hone⟩ | ⟨video, hvideo, htwo⟩ := hblocks
  · have htrivial : VideoGuarded n offer videoPort := by simp [VideoGuarded, hnone]
    rw [Guarded, hone, ← haudioIff]
    simp [htrivial]
  · rw [Guarded, htwo, ← haudioIff,
      ← videoGuarded_iff (a := a) hanswer haudio hmedia hdtls hvideo videoPort]
    simp

/-- Audio and video under DTLS-SRTP with one fingerprint. -/
def sampleDtls : List String :=
  ["a=fingerprint:sha-256 CC:DD", "m=audio 4000 UDP/TLS/RTP/SAVPF 0",
    "m=video 4002 UDP/TLS/RTP/SAVPF 97", "a=rtpmap:97 VP8/90000"]

instance (offer : SessionDescription) (audioPort : UInt16) : Decidable (AudioGuarded offer audioPort) :=
  match h : offer.media.find? fun m => decide (m.kind = .audio) with
  | none => isTrue (by simp [AudioGuarded, h])
  | some audio => decidable_of_iff (audio.port ≠ 0 → audioPort ≠ 0 →
      toAsciiUppercase audio.protocol ≠ "RTP/SAVPF".toList) (by
        simp only [AudioGuarded, h, Option.some.injEq, forall_eq'])

instance (n : Negotiator) (offer : SessionDescription) (videoPort : Option UInt16) :
    Decidable (VideoGuarded n offer videoPort) :=
  match h : offer.media.find? fun m => decide (m.kind = .video) with
  | none => isTrue (by simp [VideoGuarded, h])
  | some video => decidable_of_iff (videoPort.toList.all (fun port => decide (video.port ≠ 0 → port ≠ 0 →
      (chooseCodec video n.supportedVideo).isSome = true → isSecureProfile video.protocol = true →
      (offer.media.find? fun m : MediaDescription => decide (m.kind = .audio)).any (fun audio =>
        decide (audio.port ≠ 0 ∧ isDtlsSrtpProfile audio.protocol = true ∧
          video.fingerprint = audio.fingerprint)) = true)) = true) (by
        simp only [VideoGuarded, h, List.all_eq_true, Option.mem_toList, Option.some.injEq, Option.any_eq_true,
          decide_eq_true_eq]
        constructor
        · intro hok video' port hvideo hne hport
          subst hvideo
          exact hok port hport hne
        · intro hok port hport hne
          exact hok video port rfl hne hport)

/-- Both blocks are accepted, and keyed. -/
theorem guarded_sampleDtls : ∃ x, sampleNegotiated sampleDtls = some x ∧
      x.2.sdp.media.map MediaDescription.port = [5000, 5002] ∧ Guarded x.1 x.2 := by
  have hok : (sampleNegotiated sampleDtls).map (fun x =>
      (x.2.sdp.media.map MediaDescription.port,
        decide (AudioGuarded x.1 5000 ∧ VideoGuarded sampleNegotiator x.1 (some 5002)))) =
      some ([5000, 5002], true) := by
    rw [sampleNegotiated, sampleText_of (show sampleDtls.map String.toList = _ from
      map_ofList_cons <| map_ofList_cons <| map_ofList_cons <| map_ofList_cons <| List.map_nil)]
    decide +kernel
  obtain ⟨x, hx, hok⟩ := Option.map_eq_some_iff.mp hok
  obtain ⟨hports, hok⟩ := Prod.mk.inj hok
  obtain ⟨-, hanswer⟩ := negotiated_eq_some hx
  exact ⟨x, hx, hports, (guarded_iff _ _ _ _ _ _ hanswer).mpr (of_decide_eq_true hok)⟩

/-- An audio block under `RTP/SAVPF` is accepted in the clear. -/
theorem savpf_unprotected :
    ¬ ∀ (conv : Conv) (s : Text) (n : Negotiator) (fresh : Fresh) (offer : SessionDescription)
      (audioPort : UInt16) (videoPort : Option UInt16) (a : Answer),
      SessionDescription.parse conv s = .ok offer →
      n.answerWithVideo fresh offer audioPort videoPort = .answer a → Guarded offer a := by
  intro h
  let lines := ["m=audio 4000 RTP/SAVPF 0"]
  have hbare : (sampleNegotiated lines).map (fun x => x.2.sdp.media.any fun m =>
      decide (m.port ≠ 0) && isSecureProfile m.protocol && decide (m.crypto = []) &&
        decide (m.fingerprint = none)) = some true := by
    rw [sampleNegotiated, sampleText_of (show lines.map String.toList = _ from
      map_ofList_cons <| List.map_nil)]
    decide +kernel
  obtain ⟨x, hx, hbare⟩ := Option.map_eq_some_iff.mp hbare
  rw [List.any_eq_true] at hbare
  obtain ⟨m, hm, hbare⟩ := hbare
  simp only [Bool.and_eq_true, decide_eq_true_eq] at hbare
  obtain ⟨⟨⟨hport, hsecure⟩, hcrypto⟩, hfp⟩ := hbare
  obtain ⟨hparse, hanswer⟩ := negotiated_eq_some hx
  obtain ⟨o, -, hkeyed⟩ := h _ _ _ _ _ _ _ _ hparse hanswer m hm hport hsecure
  exact not_keyed hcrypto hfp hkeyed

end SmithsNet.Sdp
