import SmithsNet.Sdp.Parse

/-!
# SmithsNet.Sdp.WellFormed

What the parser yields is well formed: words are tokens, the rest of a line is
trimmed, and the fields keep apart what their lines are split at
(`wf_of_parse`).  Along the way the T.38 parameters of each block are those its
`a=T38…` lines add up to (`t38_of_parse`).
-/

namespace SmithsNet.Sdp

open Lib SmithsNet.Core

/-! ## well-formed values -/

/-- Text of one line, without white space at its ends. -/
structure Trimmed (t : Text) : Prop where
  line : ∀ c ∈ t, c ≠ '\n'
  ends : trim t = t

/-- A word and the text behind it. -/
structure Entry (a b : Text) : Prop where
  word : Token a
  rest : Trimmed b
  ne : b ≠ []

/-- The codec ends at the clock rate. -/
def RtpMap.WF (r : RtpMap) : Prop := ∀ c ∈ r.codec, c ≠ '/' ∧ c ≠ '\n'

def Fmtp.WF (f : Fmtp) : Prop := Entry f.format f.params

def SdesCrypto.WF (c : SdesCrypto) : Prop := c.keyMaterial.length = c.suite.keyMaterialLen

def RtcpFeedback.WF (fb : RtcpFeedback) : Prop := Entry fb.format fb.value

structure Fingerprint.WF (f : Fingerprint) : Prop where
  entry : Entry f.algorithm f.value
  lower : toAsciiLowercase f.algorithm = f.algorithm

structure Group.WF (g : Group) : Prop where
  semantics : Token g.semantics
  mids : ∀ t ∈ g.mids, Token t

/-- A parameter of a candidate that has no field of its own. -/
structure RawParam (e : Text × Text) : Prop where
  key : Token e.1
  value : Token e.2
  raddr : e.1 ≠ "raddr".toList
  rport : e.1 ≠ "rport".toList

structure IceCandidate.WF (c : IceCandidate) : Prop where
  foundation : Token c.foundation
  transport : Token c.transport
  candidateType : Token c.candidateType
  rawParams : ∀ e ∈ c.rawParams, RawParam e

/-- An empty URI has attributes behind it. -/
structure ExtMap.WF (e : ExtMap) : Prop where
  uri : ∀ c ∈ e.uri, isWhitespace c = false
  attributes : ∀ a ∈ e.attributes, Trimmed a ∧ a ≠ []
  ne : e.uri = [] → e.attributes ≠ none

/-- The names with a field of their own. -/
def t38Names : List Text :=
  ["T38FaxVersion".toList, "T38MaxBitRate".toList, "T38FaxFillBitRemoval".toList,
    "T38FaxTranscodingMMR".toList, "T38FaxTranscodingJBIG".toList, "T38FaxRateManagement".toList,
    "T38FaxMaxBuffer".toList, "T38FaxMaxDatagram".toList, "T38FaxUdpEC".toList]

structure T38Extra (e : Text × Option Text) : Prop where
  lead : "T38".toList.isPrefixOf e.1 = true
  name : Trimmed e.1
  colon : ∀ c ∈ e.1, c ≠ ':'
  other : e.1 ∉ t38Names
  value : ∀ v ∈ e.2, Trimmed v

structure T38Params.WF (t : T38Params) : Prop where
  rateManagement : ∀ v ∈ t.rateManagement, Trimmed v
  udpEc : ∀ v ∈ t.udpEc, Trimmed v
  extra : ∀ e ∈ t.extra, T38Extra e

structure MediaKind.WF (k : MediaKind) : Prop where
  token : Token k.asStr
  parse : MediaKind.parse k.asStr = k

structure MediaDescription.WF (m : MediaDescription) : Prop where
  kind : m.kind.WF
  protocol : Token m.protocol
  formats : ∀ t ∈ m.formats, Token t
  rtpmap : ∀ r ∈ m.rtpmap, r.WF
  fmtp : ∀ f ∈ m.fmtp, f.WF
  crypto : ∀ c ∈ m.crypto, c.WF
  fingerprint : ∀ f ∈ m.fingerprint, f.WF
  iceUfrag : ∀ u ∈ m.iceUfrag, Trimmed u
  icePwd : ∀ p ∈ m.icePwd, Trimmed p
  iceOptions : ∀ t ∈ m.iceOptions, Token t
  candidates : ∀ c ∈ m.candidates, c.WF
  mid : ∀ i ∈ m.mid, Trimmed i
  extmap : ∀ e ∈ m.extmap, e.WF
  rtcpFb : ∀ fb ∈ m.rtcpFb, fb.WF
  t38 : ∀ t ∈ m.t38, t.WF

structure SessionLevel.WF (s : SessionLevel) : Prop where
  fingerprint : ∀ f ∈ s.fingerprint, f.WF
  iceUfrag : ∀ u ∈ s.iceUfrag, Trimmed u
  icePwd : ∀ p ∈ s.icePwd, Trimmed p
  iceOptions : ∀ t ∈ s.iceOptions, Token t
  groups : ∀ g ∈ s.groups, g.WF

open SessionLevel

/-- A text that can end a line. -/
structure Plain (t : Text) : Prop where
  line : ∀ c ∈ t, c ≠ '\n'
  last : t.getLast? ≠ some '\r'

structure SessionDescription.WF (d : SessionDescription) : Prop where
  username : Token d.origin.username
  sessionName : Plain d.sessionName
  groups : ∀ g ∈ d.groups, g.WF
  media : ∀ m ∈ d.media, m.WF

/-! ## pieces of a line -/

variable {t : Text}

theorem trimmed_trim (h : ∀ c ∈ t, c ≠ '\n') : Trimmed (trim t) :=
  ⟨fun c hc => h c (mem_trim hc), trim_trim t⟩

theorem entry_of_split {a b : Text} (hline : ∀ c ∈ t, c ≠ '\n')
    (h : splitOnceBy isWhitespace (trim t) = some (a, b)) : Entry a (trim b) := by
  obtain ⟨hword, hne⟩ := splitOnceBy_trim h
  obtain ⟨c, -, hsplit, -⟩ := splitOnceBy_eq_some h
  refine ⟨hword, trimmed_trim fun d hd => hline d (mem_trim ?_), hne⟩
  rw [hsplit]
  simp [hd]

theorem asciiLower_white {c : Char} (h : isWhitespace c = false) :
    isWhitespace (asciiLower c) = false := by
  obtain ⟨hlow, hhigh, hval, -⟩ | ⟨-, hsame⟩ := asciiLower_cases c
  · simp only [isWhitespace, hval, Bool.or_eq_false_iff, Bool.and_eq_false_iff,
      decide_eq_false_iff_not, beq_eq_false_iff_ne]
    omega
  · rwa [hsame]

theorem token_toAsciiLowercase (h : Token t) : Token (toAsciiLowercase t) := by
  refine ⟨by simpa [toAsciiLowercase] using h.ne, fun c hc => ?_⟩
  obtain ⟨d, hd, rfl⟩ := List.mem_map.mp hc
  exact asciiLower_white (h.plain d hd)

theorem wf_parseFingerprint {f : Fingerprint} (hline : ∀ c ∈ t, c ≠ '\n')
    (h : parseFingerprint t = some f) : f.WF := by
  obtain ⟨⟨a, b⟩, hsplit, rfl⟩ := Option.map_eq_some_iff.mp h
  obtain ⟨hword, hrest, hne⟩ := entry_of_split hline hsplit
  refine ⟨⟨token_toAsciiLowercase hword, hrest, hne⟩, ?_⟩
  simp [toAsciiLowercase, asciiLower_asciiLower]

theorem entry_of_mem {α : Type} {mk : Text → Text → α} {x : α} (hline : ∀ c ∈ t, c ≠ '\n')
    (h : x ∈ ((splitOnceBy isWhitespace (trim t)).map fun e => mk e.1 (trim e.2)).toList) :
    ∃ a b, x = mk a b ∧ Entry a b := by
  obtain ⟨⟨a, b⟩, hsplit, rfl⟩ := Option.map_eq_some_iff.mp (Option.mem_toList.mp h)
  exact ⟨a, trim b, rfl, entry_of_split hline hsplit⟩

/-! ## attributes -/

section Attributes

variable {conv : Conv} {t : Text}

variable {c : IceCandidate} {m' m : MediaDescription} {i : Nat} {s : SessionLevel} {α : Type}

theorem exists_of_bind_ok {ε β : Type} {x : Except ε α} {f : α → Except ε β} {b : β}
    (h : (x >>= f) = .ok b) : ∃ a, x = .ok a ∧ f a = .ok b := by
  cases x with
  | error e => contradiction
  | ok a => exact ⟨a, rfl, h⟩

theorem wf_parseRtpmap {r : RtpMap} (hline : ∀ c ∈ t, c ≠ '\n')
    (h : parseRtpmap t i = .ok r) : r.WF := by
  unfold parseRtpmap at h
  split at h
  · contradiction
  · next ptTok rest hsplit =>
    obtain ⟨pt, -, h⟩ := exists_of_bind_ok h
    obtain ⟨c, -, rfl, -⟩ := splitOnceBy_eq_some hsplit
    split at h
    · next codec clock channels hpieces =>
      split at h
      · contradiction
      · obtain ⟨rate, -, h⟩ := exists_of_bind_ok h
        obtain ⟨chans, -, h⟩ := exists_of_bind_ok h
        obtain rfl := Except.ok.inj h
        have hmem : codec ∈ splitBy (· == '/') rest := by simp [hpieces]
        intro d hd
        obtain ⟨hslash, hin⟩ := mem_splitBy hmem d hd
        exact ⟨by simpa using hslash, hline d (by simp [hin])⟩
    · contradiction

theorem wf_parseCrypto {c : SdesCrypto} (h : parseCrypto conv t = some c) : c.WF := by
  unfold parseCrypto at h
  split at h
  · simp only [Option.bind_eq_bind, Option.bind_eq_some_iff] at h
    obtain ⟨tag, -, suite, -, inl, -, key, -, h⟩ := h
    split at h
    · contradiction
    · next hlen =>
      obtain rfl := Option.some.inj h
      exact not_not.mp hlen
  · contradiction

theorem wf_parseExtras {c' : IceCandidate} {ts : List Text} (hts : ∀ u ∈ ts, Token u)
    (hc : c.WF) (h : parseExtras conv c ts = some c') : c'.WF := by
  induction c, ts using parseExtras.induct with
  | case1 c =>
    obtain rfl : c = c' := by simpa [parseExtras] using h
    exact hc
  | case2 => contradiction
  | case3 c value rest ih =>
    simp only [parseExtras, if_true, Option.bind_eq_some_iff] at h
    obtain ⟨ip, -, h⟩ := h
    exact ih ip (fun u hu => hts u (by simp [hu])) ⟨hc.1, hc.2, hc.3, hc.4⟩ h
  | case4 c value rest hne ih =>
    simp only [parseExtras, hne, if_false, if_true, Option.bind_eq_some_iff] at h
    obtain ⟨p, -, h⟩ := h
    exact ih p (fun u hu => hts u (by simp [hu])) ⟨hc.1, hc.2, hc.3, hc.4⟩ h
  | case5 c key value rest hraddr hrport ih =>
    simp only [parseExtras, hraddr, hrport, if_false] at h
    refine ih (fun u hu => hts u (by simp [hu])) ⟨hc.1, hc.2, hc.3, ?_⟩ h
    intro e he
    obtain he | he := List.mem_append.mp he
    · exact hc.4 e he
    · obtain rfl := List.mem_singleton.mp he
      exact ⟨hts key (by simp), hts value (by simp), hraddr, hrport⟩

theorem wf_parseCandidate (h : parseCandidate conv t = some c) : c.WF := by
  have htoken : ∀ u ∈ splitWhitespace t, Token u := fun u hu => token_of_mem hu
  unfold parseCandidate at h
  split at h
  · next foundation component transport priority addr port typ candidateType extras hwords =>
    rw [hwords] at htoken
    simp only [Option.bind_eq_bind, Option.bind_eq_some_iff] at h
    obtain ⟨comp, -, prio, -, ip, -, pt, -, h⟩ := h
    split at h
    · contradiction
    · refine wf_parseExtras (fun u hu => htoken u (by simp [hu])) ?_ h
      exact ⟨htoken _ (by simp), htoken _ (by simp), htoken _ (by simp), by simp⟩
  · contradiction

theorem wf_parseExtmap {e : ExtMap} (hline : ∀ c ∈ t, c ≠ '\n') (h : parseExtmap t = some e) :
    e.WF := by
  simp only [parseExtmap, Option.bind_eq_bind, Option.bind_eq_some_iff] at h
  obtain ⟨⟨idTok, more⟩, hid, h⟩ := h
  obtain ⟨-, hmore⟩ := splitOnceBy_trim hid
  obtain ⟨c, -, hsplit, -⟩ := splitOnceBy_eq_some hid
  have hin : ∀ d ∈ more, d ≠ '\n' := fun d hd => hline d (mem_trim (by simp [hsplit, hd]))
  cases hattrs : splitOnceBy isWhitespace more with
  | none =>
    simp only [hattrs] at h
    obtain ⟨⟨id, dir⟩, -, h⟩ := h
    obtain rfl := Option.some.inj h
    refine ⟨?_, by simp, ?_⟩
    · exact plain_of_splitOnceBy_none hattrs
    · intro hnil
      change more = [] at hnil
      rw [hnil] at hmore
      contradiction
  | some pair =>
    obtain ⟨uri, attrs⟩ := pair
    simp only [hattrs] at h
    obtain ⟨⟨id, dir⟩, -, h⟩ := h
    obtain rfl := Option.some.inj h
    obtain ⟨d, hd, hmid, huri⟩ := splitOnceBy_eq_some hattrs
    have hends := (ends_of_trim t).2
    have hne : trim attrs ≠ [] := by
      intro hnil
      have hwhite := white_of_trim_eq_nil hnil
      rw [hsplit, hmid] at hends
      have hlast : (idTok ++ c :: (uri ++ d :: attrs)).getLast? = (d :: attrs).getLast? := by
        simp [List.getLast?_append, List.getLast?_cons]
      rw [hlast] at hends
      obtain ⟨z, hz⟩ : ∃ z, (d :: attrs).getLast? = some z := by simp [List.getLast?_cons]
      have hmem := List.mem_of_getLast? hz
      have hblank : isWhitespace z = true := by
        obtain rfl | hmem := List.mem_cons.mp hmem
        · exact hd
        · exact hwhite z hmem
      rw [hends z hz] at hblank
      contradiction
    refine ⟨huri, ?_, ?_⟩
    · intro a ha
      obtain rfl : trim attrs = a := by simpa [hne] using ha
      exact ⟨trimmed_trim fun x hx => hin x (by simp [hmid, hx]), hne⟩
    · simp [hne]

theorem isPrefixOf_trim {lead n : Text} (hlead : Token lead) (h : lead.isPrefixOf n = true) :
    lead.isPrefixOf (trim n) = true := by
  obtain ⟨rest, rfl⟩ := List.isPrefixOf_iff_prefix.mp h
  obtain ⟨rest', htrim⟩ := trim_append_token hlead rest
  rw [List.isPrefixOf_iff_prefix, htrim]
  exact List.prefix_append _ _

theorem t38Parts_spec (hline : ∀ c ∈ t, c ≠ '\n') (hlead : "T38".toList.isPrefixOf t = true) :
    "T38".toList.isPrefixOf (t38Parts t).1 = true ∧ Trimmed (t38Parts t).1 ∧
      (∀ c ∈ (t38Parts t).1, c ≠ ':') ∧ ∀ v ∈ (t38Parts t).2, Trimmed v := by
  have htoken : Token "T38".toList := ⟨by decide, by decide⟩
  unfold t38Parts
  split
  · next n v hsplit =>
    obtain ⟨c, hc, rfl, hn⟩ := splitOnceBy_eq_some hsplit
    have hname : "T38".toList.isPrefixOf n = true := by
      obtain rfl : c = ':' := by simpa using hc
      rw [List.isPrefixOf_iff_prefix] at hlead ⊢
      exact prefix_of_prefix_append_cons hlead (by decide)
    refine ⟨isPrefixOf_trim htoken hname, trimmed_trim fun d hd => hline d (by simp [hd]), ?_, ?_⟩
    · intro d hd
      simpa using hn d (mem_trim hd)
    · rintro w ⟨⟩
      exact trimmed_trim fun d hd => hline d (by simp [hd])
  · next hnone =>
    refine ⟨isPrefixOf_trim htoken hlead, trimmed_trim hline, ?_, by simp⟩
    intro d hd
    simpa using plain_of_splitOnceBy_none hnone d (mem_trim hd)

theorem T38Params.WF.applyAttribute {p : T38Params} (hp : p.WF) (hline : ∀ c ∈ t, c ≠ '\n')
    (hlead : "T38".toList.isPrefixOf t = true) : (p.applyAttribute t).WF := by
  obtain ⟨hname, htrim, hcolon, hvalue⟩ := t38Parts_spec hline hlead
  unfold T38Params.applyAttribute
  generalize t38Parts t = parts at hname htrim hcolon hvalue ⊢
  obtain ⟨name, value⟩ := parts
  unfold T38Params.setField
  refine iteInduction (fun _ => ⟨hp.rateManagement, hp.udpEc, hp.extra⟩) fun hversion => ?_
  refine iteInduction (fun _ => ⟨hp.rateManagement, hp.udpEc, hp.extra⟩) fun hbitRate => ?_
  refine iteInduction (fun _ => ⟨hp.rateManagement, hp.udpEc, hp.extra⟩) fun hfill => ?_
  refine iteInduction (fun _ => ⟨hp.rateManagement, hp.udpEc, hp.extra⟩) fun hmmr => ?_
  refine iteInduction (fun _ => ⟨hp.rateManagement, hp.udpEc, hp.extra⟩) fun hjbig => ?_
  refine iteInduction (fun _ => ⟨hvalue, hp.udpEc, hp.extra⟩) fun hmanagement => ?_
  refine iteInduction (fun _ => ⟨hp.rateManagement, hp.udpEc, hp.extra⟩) fun hbuffer => ?_
  refine iteInduction (fun _ => ⟨hp.rateManagement, hp.udpEc, hp.extra⟩) fun hdatagram => ?_
  refine iteInduction (fun _ => ⟨hp.rateManagement, hvalue, hp.extra⟩) fun hec => ?_
  refine ⟨hp.rateManagement, hp.udpEc, ?_⟩
  intro e he
  obtain he | he := List.mem_append.mp he
  · exact hp.extra e he
  · obtain rfl := List.mem_singleton.mp he
    refine ⟨hname, htrim, hcolon, ?_, hvalue⟩
    simp only [t38Names, List.mem_cons, List.not_mem_nil, or_false, not_or]
    exact ⟨hversion, hbitRate, hfill, hmmr, hjbig, hmanagement, hbuffer, hdatagram, hec⟩

theorem forall_mem_append {P : α → Prop} {xs ys : List α} (hx : ∀ a ∈ xs, P a)
    (hy : ∀ a ∈ ys, P a) : ∀ a ∈ xs ++ ys, P a := by
  intro a ha
  obtain ha | ha := List.mem_append.mp ha
  · exact hx a ha
  · exact hy a ha

theorem line_of_stripLead {pat rest : Text} (hline : ∀ c ∈ t, c ≠ '\n')
    (h : stripLead pat t = some rest) : ∀ c ∈ rest, c ≠ '\n' := by
  obtain rfl := stripLead_eq_some h
  intro c hc
  exact hline c (by simp [hc])

section

variable (hm : m.WF) (hline : ∀ c ∈ t, c ≠ '\n')
include hm hline

theorem wf_applySecurityAttribute (h : applySecurityAttribute conv t m = some m') :
    m'.WF ∧ m'.t38 = m.t38 := by
  unfold applySecurityAttribute at h
  split at h
  · next rest hlead =>
    obtain rfl := Option.some.inj h
    split
    · next fp hfp =>
      refine ⟨{ hm with fingerprint := ?_ }, rfl⟩
      rintro f ⟨⟩
      exact wf_parseFingerprint (line_of_stripLead hline hlead) hfp
    · exact ⟨hm, rfl⟩
  split at h
  · obtain rfl := Option.some.inj h
    split
    · exact ⟨{ hm with }, rfl⟩
    · exact ⟨hm, rfl⟩
  split at h
  · next rest hlead =>
    obtain rfl := Option.some.inj h
    refine ⟨{ hm with iceUfrag := ?_ }, rfl⟩
    rintro u ⟨⟩
    exact trimmed_trim (line_of_stripLead hline hlead)
  split at h
  · next rest hlead =>
    obtain rfl := Option.some.inj h
    refine ⟨{ hm with icePwd := ?_ }, rfl⟩
    rintro u ⟨⟩
    exact trimmed_trim (line_of_stripLead hline hlead)
  split at h
  · obtain rfl := Option.some.inj h
    exact ⟨{ hm with iceOptions := fun u hu => token_of_mem hu }, rfl⟩
  split at h
  · obtain rfl := Option.some.inj h
    refine ⟨{ hm with candidates := forall_mem_append hm.candidates fun c hc => ?_ }, rfl⟩
    exact wf_parseCandidate (Option.mem_toList.mp hc)
  split at h
  · obtain rfl := Option.some.inj h
    exact ⟨{ hm with }, rfl⟩
  · contradiction

theorem wf_applyMultiplexAttribute (h : applyMultiplexAttribute conv t m = some m') :
    m'.WF ∧ m'.t38 = m.t38 := by
  unfold applyMultiplexAttribute at h
  split at h
  · next rest hlead =>
    obtain rfl := Option.some.inj h
    refine ⟨{ hm with mid := ?_ }, rfl⟩
    rintro i ⟨⟩
    exact trimmed_trim (line_of_stripLead hline hlead)
  split at h
  · next rest hlead =>
    obtain rfl := Option.some.inj h
    refine ⟨{ hm with extmap := forall_mem_append hm.extmap fun e he => ?_ }, rfl⟩
    exact wf_parseExtmap (line_of_stripLead hline hlead) (Option.mem_toList.mp he)
  split at h
  · obtain rfl := Option.some.inj h
    exact ⟨{ hm with }, rfl⟩
  split at h
  · obtain rfl := Option.some.inj h
    split
    · exact ⟨{ hm with }, rfl⟩
    · exact ⟨hm, rfl⟩
  split at h
  · next rest hlead =>
    obtain rfl := Option.some.inj h
    refine ⟨{ hm with rtcpFb := forall_mem_append hm.rtcpFb fun fb hfb => ?_ }, rfl⟩
    obtain ⟨a, b, rfl, hentry⟩ := entry_of_mem (line_of_stripLead hline hlead) hfb
    exact hentry
  · contradiction

theorem wf_applyOtherAttribute : (applyOtherAttribute t m).WF := by
  unfold applyOtherAttribute
  split
  · next hlead =>
    refine { hm with t38 := ?_ }
    rintro p ⟨⟩
    have hbase : (m.t38.getD {}).WF := by
      cases ht : m.t38 with
      | none => exact ⟨by simp, by simp, by simp⟩
      | some q => exact hm.t38 q ht
    exact hbase.applyAttribute hline hlead
  · split
    · exact { hm with }
    · exact hm

end

theorem t38_applyOtherAttribute (m : MediaDescription) : (applyOtherAttribute t m).t38 =
      if "T38".toList.isPrefixOf t then some ((m.t38.getD {}).applyAttribute t) else m.t38 := by
  unfold applyOtherAttribute
  split
  · rfl
  · split
    · rfl
    · rfl

theorem applyMediaAttribute_t38 (hfax : "T38".toList.isPrefixOf t = true) :
    applyMediaAttribute conv t m i = .ok (applyOtherAttribute t m) := by
  obtain ⟨rest, rfl⟩ := List.isPrefixOf_iff_prefix.mp hfax
  simp (disch := decide) only [applyMediaAttribute, applySecurityAttribute, applyMultiplexAttribute,
    stripLead_of_clash, append_eq_of_clash, if_false]

/-- An attribute keeps a block well formed, and only a T.38 one changes those
parameters. -/
theorem wf_applyMediaAttribute (hm : m.WF)
    (hline : ∀ c ∈ t, c ≠ '\n') (h : applyMediaAttribute conv t m i = .ok m') : m'.WF ∧ m'.t38 =
      if "T38".toList.isPrefixOf t then some ((m.t38.getD {}).applyAttribute t) else m.t38 := by
  by_cases hfax : "T38".toList.isPrefixOf t
  · rw [applyMediaAttribute_t38 hfax] at h
    obtain rfl := Except.ok.inj h
    exact ⟨wf_applyOtherAttribute hm hline, t38_applyOtherAttribute m⟩
  rw [if_neg hfax]
  unfold applyMediaAttribute at h
  split at h
  · next rest hlead =>
    obtain ⟨r, hr, h⟩ := exists_of_bind_ok h
    obtain rfl := Except.ok.inj h
    refine ⟨{ hm with rtpmap := forall_mem_append hm.rtpmap ?_ }, rfl⟩
    simpa using wf_parseRtpmap (line_of_stripLead hline hlead) hr
  split at h
  · next rest hlead =>
    obtain rfl := Except.ok.inj h
    refine ⟨{ hm with fmtp := forall_mem_append hm.fmtp fun f hf => ?_ }, rfl⟩
    obtain ⟨a, b, rfl, hentry⟩ := entry_of_mem (line_of_stripLead hline hlead) hf
    exact hentry
  split at h
  · obtain rfl := Except.ok.inj h
    exact ⟨{ hm with }, rfl⟩
  split at h
  · obtain rfl := Except.ok.inj h
    exact ⟨{ hm with }, rfl⟩
  split at h
  · obtain rfl := Except.ok.inj h
    refine ⟨{ hm with crypto := forall_mem_append hm.crypto fun c hc => ?_ }, rfl⟩
    exact wf_parseCrypto (Option.mem_toList.mp hc)
  split at h
  · next hsec =>
    obtain rfl := Except.ok.inj h
    exact wf_applySecurityAttribute hm hline hsec
  split at h
  · next hmux =>
    obtain rfl := Except.ok.inj h
    exact wf_applyMultiplexAttribute hm hline hmux
  · obtain rfl := Except.ok.inj h
    have hsame := t38_applyOtherAttribute (t := t) m
    rw [if_neg hfax] at hsame
    exact ⟨wf_applyOtherAttribute hm hline, hsame⟩

theorem wf_applySessionAttribute (hs : s.WF) (hline : ∀ c ∈ t, c ≠ '\n') :
    (applySessionAttribute t s).WF := by
  unfold applySessionAttribute
  split
  · next rest hlead =>
    unfold SessionLevel.addGroup
    split
    · exact hs
    · next semantics mids hwords =>
      have htoken : ∀ u ∈ splitWhitespace rest, Token u := fun u hu => token_of_mem hu
      rw [hwords] at htoken
      refine { hs with groups := forall_mem_append hs.groups ?_ }
      simpa using ⟨htoken _ (by simp), fun u hu => htoken u (by simp [hu])⟩
  split
  · exact { hs with }
  split
  · next rest hlead =>
    refine { hs with fingerprint := fun f hf => ?_ }
    exact wf_parseFingerprint (line_of_stripLead hline hlead) hf
  split
  · exact { hs with }
  split
  · next rest hlead =>
    refine { hs with iceUfrag := ?_ }
    rintro u ⟨⟩
    exact trimmed_trim (line_of_stripLead hline hlead)
  split
  · next rest hlead =>
    refine { hs with icePwd := ?_ }
    rintro u ⟨⟩
    exact trimmed_trim (line_of_stripLead hline hlead)
  split
  · exact { hs with iceOptions := fun u hu => token_of_mem hu }
  split
  · exact { hs with }
  · exact hs

theorem wf_kind (h : Token t) : (MediaKind.parse t).WF := by
  have hback : (MediaKind.parse t).asStr = t := by
    unfold MediaKind.parse
    split_ifs with haudio hvideo happ himage
    · exact haudio.symm
    · exact hvideo.symm
    · exact happ.symm
    · exact himage.symm
    · rfl
  exact ⟨by rwa [hback], by rw [hback]⟩

/-- A new block has what its line says and what the session passes on. -/
theorem wf_seed (hs : s.WF) (h : parseMedia t i = .ok m) : (s.seed m).WF := by
  have htoken : ∀ u ∈ splitWhitespace t, Token u := fun u hu => token_of_mem hu
  unfold parseMedia at h
  split at h
  · contradiction
  · contradiction
  · next kind portToken rest hwords =>
    rw [hwords] at htoken
    obtain ⟨port, -, h⟩ := exists_of_bind_ok h
    split at h
    · contradiction
    · next rest protocol formats _ =>
      obtain rfl := Except.ok.inj h
      have hkind : Token kind := htoken _ (by simp)
      have hprotocol : Token protocol := htoken _ (by simp)
      exact
        { kind := wf_kind hkind
          protocol := hprotocol
          formats := fun u hu => htoken u (by simp only [seed] at hu; simp [hu])
          rtpmap := by simp [seed]
          fmtp := by simp [seed]
          crypto := by simp [seed]
          fingerprint := hs.fingerprint
          iceUfrag := hs.iceUfrag
          icePwd := hs.icePwd
          iceOptions := hs.iceOptions
          candidates := by simp [seed]
          mid := by simp [seed]
          extmap := by simp [seed]
          rtcpFb := by simp [seed]
          t38 := by simp [seed] }

theorem t38_parseMedia (h : parseMedia t i = .ok m) : (s.seed m).t38 = none := by
  unfold parseMedia at h
  split at h
  · contradiction
  · contradiction
  · obtain ⟨port, -, h⟩ := exists_of_bind_ok h
    split at h
    · contradiction
    · obtain rfl := Except.ok.inj h
      rfl

end Attributes

/-! ## T.38 attributes -/

/-- One more line to the T.38 attributes of each block: a block starts at its
`m=`. -/
def t38Kind (blocks : List (List Text)) (kind value : Text) : List (List Text) :=
  if kind = ['m'] then blocks ++ [[]]
  else if kind = ['a'] ∧ "T38".toList.isPrefixOf value then
    blocks.dropLast ++ (blocks.getLast?.map (· ++ [value])).toList
  else blocks

/-- One more raw line. -/
def t38Line (blocks : List (List Text)) (raw : Text) : List (List Text) :=
  match splitOnceBy (· == '=') (stripEnd raw) with
  | some (kind, value) => t38Kind blocks kind value
  | none => blocks

/-- The T.38 attributes of each block of a text. -/
def t38Blocks (input : Text) : List (List Text) := (splitBy (· == '\n') input).foldl t38Line []

/-- What the attributes of a block add up to (`parse_attrs`). -/
def parseAttrs (attrs : List Text) : T38Params := attrs.foldl T38Params.applyAttribute {}

def t38Of (attrs : List Text) : Option T38Params :=
  if attrs = [] then none else some (parseAttrs attrs)

theorem t38Of_append (attrs : List Text) (attr : Text) :
    t38Of (attrs ++ [attr]) = some (((t38Of attrs).getD {}).applyAttribute attr) := by
  by_cases hnil : attrs = []
  · rw [hnil]
    rfl
  · simp [t38Of, hnil, parseAttrs, List.foldl_append]

/-! ## lines -/

/-- What is known of the parser after some lines. -/
structure ParseState.Parsed (st : ParseState) (blocks : List (List Text)) : Prop where
  username : ∀ o ∈ st.origin, Token o.username
  sessionName : ∀ n ∈ st.sessionName, Plain n
  session : st.session.WF
  media : ∀ m ∈ st.finished, m.WF
  /-- Before the first block there is none. -/
  none : st.cur = none → st.media = []
  t38 : st.finished.map MediaDescription.t38 = blocks.map t38Of

open ParseState

section Lines

variable {conv : Conv} {st st' : ParseState} {blocks : List (List Text)}

variable {m m' : MediaDescription} {i : Nat} {value raw : Text}

theorem token_username {t : Text} {o : Origin} (h : parseOrigin conv t i = .ok o) :
    Token o.username := by
  have htoken : ∀ u ∈ splitWhitespace t, Token u := fun u hu => token_of_mem hu
  unfold parseOrigin at h
  split at h
  · next user sid ver net typ addr hwords =>
    rw [hwords] at htoken
    obtain ⟨sessionId, -, h⟩ := exists_of_bind_ok h
    obtain ⟨sessionVersion, -, h⟩ := exists_of_bind_ok h
    obtain ⟨address, -, h⟩ := exists_of_bind_ok h
    obtain rfl := Except.ok.inj h
    exact htoken user (by simp)
  · contradiction

section

variable (h : st.Parsed blocks)
include h

theorem ParseState.Parsed.exists_block (hcur : st.cur = some m) :
    ∃ bs b, blocks = bs ++ [b] ∧ st.media.map MediaDescription.t38 = bs.map t38Of ∧
      t38Of b = m.t38 := by
  have ht38 := h.t38
  simp only [finished, hcur, Option.toList_some, List.map_append] at ht38
  obtain ⟨bs, last, rfl, hbs, hlast⟩ := List.map_eq_append_iff.mp ht38.symm
  obtain ⟨b, rest, rfl, hb, hrest⟩ := List.map_eq_cons_iff.mp hlast
  obtain rfl := List.map_eq_nil_iff.mp hrest
  exact ⟨bs, b, rfl, hbs.symm, hb⟩

theorem ParseState.Parsed.setCur {bs : List (List Text)} {b : List Text} (hcur : st.cur = some m) (hm : m'.WF)
    (hbs : st.media.map MediaDescription.t38 = bs.map t38Of) (hb : t38Of b = m'.t38) :
    ({ st with cur := some m' }).Parsed (bs ++ [b]) := by
  refine { h with media := ?_, none := by simp, t38 := ?_ }
  · have hmedia := h.media
    simp only [finished, hcur] at hmedia ⊢
    refine forall_mem_append (fun x hx => hmedia x (by simp [hx])) ?_
    simpa using hm
  · simp [finished, hbs, hb]

theorem parsed_applyMedia (hcur : st.cur = some m) (hline : ∀ c ∈ value, c ≠ '\n')
    (hm : applyMediaAttribute conv value m i = .ok m') :
    ({ st with cur := some m' }).Parsed (t38Kind blocks ['a'] value) := by
  have hwf : m.WF := h.media m (by simp [finished, hcur])
  obtain ⟨hwf', ht38⟩ := wf_applyMediaAttribute hwf hline hm
  obtain ⟨bs, b, rfl, hbs, hb⟩ := h.exists_block hcur
  by_cases hfax : "T38".toList.isPrefixOf value
  · rw [if_pos hfax, ← hb, ← t38Of_append] at ht38
    have hnext := h.setCur hcur hwf' hbs ht38.symm
    have hkind : t38Kind (bs ++ [b]) ['a'] value = bs ++ [b ++ [value]] := by
      unfold t38Kind
      rw [if_neg (by decide), if_pos ⟨rfl, hfax⟩]
      simp
    rwa [hkind]
  · rw [if_neg hfax, ← hb] at ht38
    have hnext := h.setCur hcur hwf' hbs ht38.symm
    have hkind : t38Kind (bs ++ [b]) ['a'] value = bs ++ [b] := by
      unfold t38Kind
      rw [if_neg (by decide), if_neg fun hand => hfax hand.2]
    rwa [hkind]

theorem blocks_nil (hcur : st.cur = none) (value : Text) : t38Kind blocks ['a'] value = blocks := by
  have ht38 := h.t38
  simp only [finished, hcur, h.none hcur] at ht38
  obtain rfl : blocks = [] := by simpa using ht38
  unfold t38Kind
  rw [if_neg (by decide)]
  split
  · rfl
  · rfl

theorem parsed_applyKind {kind : Text} (hvalue : Plain value)
    (hkind : st.applyKind conv kind value i = .ok st') :
    st'.Parsed (t38Kind blocks kind value) := by
  have hsame : kind ≠ ['m'] → kind ≠ ['a'] → t38Kind blocks kind value = blocks := by
    intro hm ha
    simp [t38Kind, hm, ha]
  unfold ParseState.applyKind at hkind
  split at hkind
  · next hk =>
    rw [hsame (by simp [hk]) (by simp [hk])]
    split at hkind
    · contradiction
    · obtain rfl := Except.ok.inj hkind
      exact { h with }
  split at hkind
  · next hk =>
    rw [hsame (by simp [hk]) (by simp [hk])]
    obtain ⟨o, ho, hkind⟩ := exists_of_bind_ok hkind
    obtain rfl := Except.ok.inj hkind
    refine { h with username := ?_ }
    rintro o' ⟨⟩
    exact token_username ho
  split at hkind
  · next hk =>
    rw [hsame (by simp [hk]) (by simp [hk])]
    obtain rfl := Except.ok.inj hkind
    refine { h with sessionName := ?_ }
    rintro n ⟨⟩
    exact hvalue
  split at hkind
  · next hk =>
    rw [hsame (by simp [hk]) (by simp [hk])]
    obtain ⟨c, -, hkind⟩ := exists_of_bind_ok hkind
    split at hkind
    · next m hcur =>
      obtain rfl := Except.ok.inj hkind
      obtain ⟨bs, b, rfl, hbs, hb⟩ := h.exists_block hcur
      have hwf : m.WF := h.media m (by simp [finished, hcur])
      exact h.setCur hcur { hwf with } hbs hb
    · obtain rfl := Except.ok.inj hkind
      exact { h with }
  split at hkind
  · next hk =>
    obtain ⟨m, hm, hkind⟩ := exists_of_bind_ok hkind
    obtain rfl := Except.ok.inj hkind
    have hfresh : (st.session.seed m).t38 = t38Of [] := t38_parseMedia hm
    refine { h with media := ?_, none := by simp, t38 := ?_ }
    · refine forall_mem_append h.media ?_
      simpa using wf_seed h.session hm
    · simp [t38Kind, hk, finished, hfresh, ← h.t38]
  split at hkind
  · next hk =>
    rw [hk]
    split at hkind
    · next m hcur =>
      obtain ⟨m', hm', hkind⟩ := exists_of_bind_ok hkind
      obtain rfl := Except.ok.inj hkind
      exact parsed_applyMedia h hcur hvalue.line hm'
    · next hcur =>
      obtain rfl := Except.ok.inj hkind
      rw [blocks_nil h hcur]
      exact { h with session := wf_applySessionAttribute h.session hvalue.line }
  · next hm ha =>
    obtain rfl := Except.ok.inj hkind
    rwa [hsame hm ha]

end

theorem plain_stripEnd (h : ∀ c ∈ raw, c ≠ '\n') : Plain (stripEnd raw) := by
  obtain ⟨hlast, hmem⟩ := trimEndMatches_spec '\r' raw
  have hkeep : stripEnd raw = trimEndMatches '\r' raw := by
    refine trimEndMatches_of_ne fun hc => ?_
    exact h _ (hmem _ (List.mem_of_getLast? hc)) rfl
  rw [hkeep]
  exact ⟨fun c hc => h c (hmem c hc), hlast⟩

theorem parsed_applyLine (h : st.Parsed blocks) (hraw : ∀ c ∈ raw, c ≠ '\n')
    (hline : st.applyLine conv (raw, i) = .ok st') : st'.Parsed (t38Line blocks raw) := by
  have hplain := plain_stripEnd hraw
  unfold applyLine at hline
  unfold t38Line
  dsimp only at hline
  split at hline
  · next hnil =>
    obtain rfl := Except.ok.inj hline
    rw [hnil]
    exact h
  split at hline
  · contradiction
  · next kind value hsplit =>
    rw [hsplit]
    obtain ⟨c, -, heq, -⟩ := splitOnceBy_eq_some hsplit
    refine parsed_applyKind h ⟨?_, ?_⟩ hline
    · intro d hd
      exact hplain.line d (by simp [heq, hd])
    · intro hlast
      refine hplain.last ?_
      simp [heq, List.getLast?_append, List.getLast?_cons, hlast]

theorem parsed_foldlM {raws : List Text} {k : Nat} (h : st.Parsed blocks)
    (hraws : ∀ raw ∈ raws, ∀ c ∈ raw, c ≠ '\n')
    (hfold : (raws.zipIdx k).foldlM (applyLine conv) st = .ok st') :
    st'.Parsed (raws.foldl t38Line blocks) := by
  induction raws generalizing st blocks k with
  | nil =>
    obtain rfl := Except.ok.inj hfold
    exact h
  | cons raw raws ih =>
    rw [List.zipIdx_cons, List.foldlM_cons] at hfold
    obtain ⟨mid, hmid, hfold⟩ := exists_of_bind_ok hfold
    obtain ⟨hraw, hraws⟩ := List.forall_mem_cons.mp hraws
    exact ih (parsed_applyLine h hraw hmid) hraws hfold

/-- A parsed description is well formed, and the T.38 parameters of its blocks
are what their lines add up to. -/
theorem wf_of_parse {input : Text} {d : SessionDescription}
    (h : SessionDescription.parse conv input = .ok d) :
    d.WF ∧ d.media.map MediaDescription.t38 = (t38Blocks input).map t38Of := by
  obtain ⟨st, hfold, hfinish⟩ := exists_of_bind_ok h
  have hinit : ({} : ParseState).Parsed [] :=
    { username := by simp
      sessionName := by simp
      session := ⟨by simp, by simp, by simp, by simp, by simp⟩
      media := by simp [finished]
      none := by simp
      t38 := rfl }
  have hst := parsed_foldlM hinit ?_ hfold
  · unfold ParseState.finish at hfinish
    split at hfinish
    · contradiction
    split at hfinish
    · contradiction
    · next origin horigin =>
      split at hfinish
      · contradiction
      · next name hname =>
        obtain rfl := Except.ok.inj hfinish
        exact ⟨⟨hst.username origin horigin, hst.sessionName name hname, hst.session.groups,
          hst.media⟩, hst.t38⟩
  · intro raw hmem c hc
    simpa using (mem_splitBy hmem c hc).1

end Lines

end SmithsNet.Sdp
