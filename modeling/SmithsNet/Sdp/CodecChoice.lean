import SmithsNet.Sdp.Answers

/-!
# SmithsNet.Sdp.CodecChoice

Which codec an answer takes from the offered audio block, and what it says about
it.

The choice goes by what the offer says a payload type stands for (`meaningOf`):
its rtpmap, and without one its static assignment.  The code takes a payload type
without an rtpmap by the number of a supported entry, and those numbers are
placeholders: `choice_iff` says for which offers that and the echoed lines come
out right.
-/

namespace SmithsNet.Sdp

open Lib SmithsNet.Core
open Option (any_some isSome_iff_exists map_eq_some_iff mem_toList mem_unique)
open List

/-! ## the first of two readings -/

section Firsts

variable {α β : Type} {p : α → Bool} {f : α → Option β} {l : List α} {x : α}

/-- What either reading takes first is taken first by each that takes it. -/
theorem find?_of_first (h : (l.find? fun a => p a || (f a).isSome) = some x) (hp : p x = true) :
    l.find? p = some x := by
  obtain ⟨-, before, after, rfl, hbefore⟩ := List.find?_eq_some_iff_append.mp h
  refine List.find?_eq_some_iff_append.mpr ⟨hp, before, after, rfl, ?_⟩
  intro a ha
  have hneither := hbefore a ha
  simp only [Bool.not_eq_true', Bool.or_eq_false_iff] at hneither
  rw [hneither.1]
  rfl

theorem findSome?_of_first {r : β} (h : (l.find? fun a => p a || (f a).isSome) = some x)
    (hf : f x = some r) : l.findSome? f = some r := by
  obtain ⟨-, before, after, rfl, hbefore⟩ := List.find?_eq_some_iff_append.mp h
  refine List.findSome?_eq_some_iff.mpr ⟨before, x, after, rfl, hf, ?_⟩
  intro a ha
  have hneither := hbefore a ha
  simp only [Bool.not_eq_true', Bool.or_eq_false_iff, Option.isSome_eq_false_iff,
    Option.isNone_iff_eq_none] at hneither
  exact hneither.2

end Firsts

/-! ## meanings -/

/-- What a payload type stands for. -/
structure Meaning where
  name : Text
  clockRate : UInt32

/-- Encoding names have no letter case. -/
def Meaning.same (v w : Meaning) : Bool :=
  eqIgnoreAsciiCase v.name w.name && decide (v.clockRate = w.clockRate)

def Meaning.isTelephoneEvent (w : Meaning) : Bool :=
  eqIgnoreAsciiCase w.name "telephone-event".toList

def RtpMap.meaning (r : RtpMap) : Meaning := ⟨r.codec, r.clockRate⟩

/-- The payload types with a fixed meaning. -/
def staticAssignments : List (UInt8 × String × UInt32) :=
  [(0, "PCMU", 8000), (3, "GSM", 8000), (4, "G723", 8000), (5, "DVI4", 8000), (6, "DVI4", 16000),
    (7, "LPC", 8000), (8, "PCMA", 8000), (9, "G722", 8000), (10, "L16", 44100), (11, "L16", 44100),
    (12, "QCELP", 8000), (13, "CN", 8000), (14, "MPA", 90000), (15, "G728", 8000),
    (16, "DVI4", 11025), (17, "DVI4", 22050), (18, "G729", 8000), (25, "CelB", 90000),
    (26, "JPEG", 90000), (28, "nv", 90000), (31, "H261", 90000), (32, "MPV", 90000),
    (33, "MP2T", 90000), (34, "H263", 90000)]

def staticMeaning (pt : UInt8) : Option Meaning :=
  (staticAssignments.find? fun e => decide (e.1 = pt)).map fun e => ⟨e.2.1.toList, e.2.2⟩

variable {v w : Meaning} {o : MediaDescription} {e : RtpMap}

theorem Meaning.same_iff : v.same w = true ↔ toAsciiUppercase v.name = toAsciiUppercase w.name ∧
      v.clockRate = w.clockRate := by
  simp only [Meaning.same, Bool.and_eq_true, eqIgnoreAsciiCase_iff, decide_eq_true_eq]

theorem Meaning.isTelephoneEvent_of_same (h : v.same w = true) :
    v.isTelephoneEvent = w.isTelephoneEvent := by
  obtain ⟨hname, -⟩ := Meaning.same_iff.mp h
  rw [Bool.eq_iff_iff, Meaning.isTelephoneEvent, Meaning.isTelephoneEvent, eqIgnoreAsciiCase_iff,
    eqIgnoreAsciiCase_iff, hname]

/-- The line is for the payload type. -/
def Fmtp.isFor (f : Fmtp) (pt : UInt8) : Bool := decide (parseUnsigned 8 f.format = some pt.toNat)

namespace MediaDescription

variable (o : MediaDescription) (supported : List RtpMap)

/-- What the block says a payload type stands for. -/
def meaningOf (pt : UInt8) : Option Meaning :=
  match o.rtpmapFor pt with
  | some r => some r.meaning
  | none => staticMeaning pt

/-- The payload type stands for a supported codec. -/
def understood (pt : UInt8) : Bool :=
  (o.meaningOf pt).any fun w => supported.any fun s => s.meaning.same w

/-- The payload type stands for telephone-event. -/
def isTone (pt : UInt8) : Bool := (o.meaningOf pt).any Meaning.isTelephoneEvent

end MediaDescription

/-! ## what the answer has to be -/

/-- `m` accepts the offered block `o`. -/
structure Accepted (o : MediaDescription) (supported : List RtpMap) (m : MediaDescription) :
    Prop where
  nodup : m.formats.Nodup
  sublist : m.formats.Sublist o.formats
  /-- The codec is the first one that is understood; a telephone-event may follow. -/
  codec : ∃ (pt : UInt8) (event : Option UInt8),
    m.formats = (pt :: event.toList).map (fun q => showNat q.toNat) ∧
      o.payloadTypes.find? (o.understood supported) = some pt ∧ o.isTone pt = false ∧
      ∀ q ∈ event, o.isTone q = true
  mapped : m.rtpmap.map RtpMap.payloadType = m.payloadTypes
  stated : ∀ r ∈ m.rtpmap, ∃ w, o.meaningOf r.payloadType = some w ∧ r.meaning.same w = true
  fmtp : m.fmtp.Perm (o.fmtp.filter fun f => m.payloadTypes.any f.isFor)
  rtcpFb : m.rtcpFb = o.rtcpFb.filter fun fb => m.payloadTypes.any fb.appliesTo

/-- There is what the profile of the block needs for its keys. -/
def Negotiator.keyable (n : Negotiator) (o : MediaDescription) : Bool :=
  if isDtlsSrtpProfile o.protocol then n.dtlsCert.isSome && o.fingerprint.isSome
  else if isSavpProfile o.protocol then !o.crypto.isEmpty
  else true

/-- The result answers the offered audio block as it should; a block on port zero
is declined. -/
def CodecChoice (n : Negotiator) (offer : SessionDescription) : NegotiationResult → Prop
  | .answer a => ∀ o, (offer.media.find? fun m => decide (m.kind = .audio)) = some o → o.port ≠ 0 →
      ∃ m, a.sdp.media.head? = some m ∧ Accepted o n.supported m
  | .mismatch => ∀ o, (offer.media.find? fun m => decide (m.kind = .audio)) = some o →
      (∀ pt ∈ o.payloadTypes, o.understood n.supported pt = false) ∨ n.keyable o = false
  | .unsupportedTransport _ => True

/-! ## when it is so -/

namespace MediaDescription

variable (o : MediaDescription) (supported : List RtpMap)

/-- The payload type may be taken: it is understood, or it has no rtpmap and the
number of a supported entry. -/
def candidate (pt : UInt8) : Bool :=
  o.understood supported pt ||
    ((o.rtpmapFor pt).isNone && supported.any fun s => decide (s.payloadType = pt))

def offeredEvents : List RtpMap :=
  o.rtpmap.filter fun r => r.isTelephoneEvent && o.hasFormat (showNat r.payloadType.toNat)

/-- The telephone-event for a codec of this clock rate: the first one of the same
rate, and the first one at all where none has it. -/
def EventFor (rate : UInt32) (e : RtpMap) : Prop :=
  ∃ before after, o.offeredEvents = before ++ e :: after ∧
    ((e.clockRate = rate ∧ ∀ r ∈ before, r.clockRate ≠ rate) ∨
      (before = [] ∧ ∀ r ∈ o.offeredEvents, r.clockRate ≠ rate))

/-- At most one format parameter line, under the plain number. -/
def OneFmtp (pt : UInt8) : Prop :=
  (o.fmtp.filter fun f => f.isFor pt).length ≤ 1 ∧
    ∀ f ∈ o.fmtp, f.isFor pt = true → f.format = showNat pt.toNat

/-- The offer is clear about the payload type that is taken for the codec. -/
structure Clear (pt : UInt8) : Prop where
  /-- Without an rtpmap it has a static assignment, the one of the supported entry
  of its number. -/
  assigned : o.rtpmapFor pt = none →
    ∃ s w, (supported.find? fun s => decide (s.payloadType = pt)) = some s ∧
      staticMeaning pt = some w ∧ s.meaning.same w = true
  voice : o.isTone pt = false
  token : showNat pt.toNat ∈ o.formats
  fmtp : o.OneFmtp pt
  /-- The telephone-event is what the first rtpmap of its number says, and stands
  after the codec. -/
  event : ∀ w e, o.meaningOf pt = some w → o.EventFor w.clockRate e →
    (∀ r, o.rtpmapFor e.payloadType = some r → e.meaning.same r.meaning = true) ∧
      (∃ before after, o.formats = before ++ showNat pt.toNat :: after ∧
        showNat e.payloadType.toNat ∈ after) ∧
      o.OneFmtp e.payloadType

end MediaDescription

/-- Where the audio block can be keyed, the first payload type that may be taken
is one the offer is clear about. -/
def ClearOffer (n : Negotiator) (offer : SessionDescription) : Prop :=
  ∀ o, (offer.media.find? fun m => decide (m.kind = .audio)) = some o → o.port ≠ 0 →
    n.keyable o = true →
    ∀ pt, o.payloadTypes.find? (o.candidate n.supported) = some pt → o.Clear n.supported pt

/-! ## the choice -/

/-- What the code makes of one payload type. -/
def taken (o : MediaDescription) (supported : List RtpMap) (pt : UInt8) : Option RtpMap :=
  match o.rtpmapFor pt with
  | some r =>
    (supported.find? fun s => eqIgnoreAsciiCase s.codec r.codec &&
      decide (s.clockRate = r.clockRate)).map fun _ => r
  | none => supported.find? fun s => decide (s.payloadType = pt)

section Choice

variable {o : MediaDescription} {supported : List RtpMap} {pt : UInt8} {r : RtpMap}

theorem chooseCodec_eq (o : MediaDescription) (supported : List RtpMap) :
    chooseCodec o supported = o.payloadTypes.findSome? (taken o supported) := rfl

theorem payloadType_of_rtpmapFor (h : o.rtpmapFor pt = some r) :
    r ∈ o.rtpmap ∧ r.payloadType = pt :=
  ⟨mem_of_find?_eq_some h, by simpa using find?_some h⟩

theorem taken_of_rtpmap (h : o.rtpmapFor pt = some r) :
    taken o supported pt = if o.understood supported pt = true then some r else none := by
  have hreads : o.understood supported pt = true ↔
      (supported.find? fun s => eqIgnoreAsciiCase s.codec r.codec &&
        decide (s.clockRate = r.clockRate)).isSome = true := by
    simp only [MediaDescription.understood, MediaDescription.meaningOf, h, any_some,
      any_eq_true, find?_isSome]
    rfl
  simp only [taken, h]
  split
  · next hunderstood =>
    obtain ⟨s, hs⟩ := isSome_iff_exists.mp (hreads.mp hunderstood)
    rw [hs, Option.map_some]
  · next hnot =>
    rw [hreads, Option.not_isSome_iff_eq_none] at hnot
    rw [hnot, Option.map_none]

theorem taken_of_none (h : o.rtpmapFor pt = none) :
    taken o supported pt = supported.find? fun s => decide (s.payloadType = pt) := by
  simp only [taken, h]

theorem payloadType_of_taken (h : taken o supported pt = some r) : r.payloadType = pt := by
  cases hmap : o.rtpmapFor pt with
  | some q =>
    rw [taken_of_rtpmap hmap, Option.ite_none_right_eq_some, Option.some.injEq] at h
    obtain ⟨-, rfl⟩ := h
    exact (payloadType_of_rtpmapFor hmap).2
  | none =>
    rw [taken_of_none hmap] at h
    simpa using find?_some h

theorem candidate_eq (o : MediaDescription) (supported : List RtpMap) : o.candidate supported =
      fun pt => o.understood supported pt || (taken o supported pt).isSome := by
  funext pt
  rw [MediaDescription.candidate]
  cases hmap : o.rtpmapFor pt with
  | some r =>
    rw [taken_of_rtpmap hmap]
    cases o.understood supported pt <;> rfl
  | none =>
    have hnumbered : (supported.find? fun s => decide (s.payloadType = pt)).isSome =
        supported.any fun s => decide (s.payloadType = pt) := by
      rw [Bool.eq_iff_iff, find?_isSome, any_eq_true]
    rw [taken_of_none hmap, hnumbered]
    rfl

theorem candidate_of_chooseCodec (h : chooseCodec o supported = some r) :
    ∃ pt, o.payloadTypes.find? (o.candidate supported) = some pt := by
  rw [chooseCodec_eq] at h
  obtain ⟨q, hq, htaken⟩ := exists_of_findSome?_eq_some h
  apply isSome_iff_exists.mp
  rw [find?_isSome, candidate_eq]
  exact ⟨q, hq, by simp [htaken]⟩

end Choice

/-! ## the telephone-event -/

theorem telephoneEventFor_eq (o : MediaDescription) (chosen : RtpMap) : telephoneEventFor o chosen =
      (o.offeredEvents.find? fun r => decide (r.clockRate = chosen.clockRate)).or
        o.offeredEvents.head? := rfl

theorem telephoneEventFor_iff {chosen : RtpMap} :
    telephoneEventFor o chosen = some e ↔ o.EventFor chosen.clockRate e := by
  rw [telephoneEventFor_eq]
  cases hrate : o.offeredEvents.find? fun r => decide (r.clockRate = chosen.clockRate) with
  | some q =>
    obtain ⟨hq, before, after, hsplit, hbefore⟩ := List.find?_eq_some_iff_append.mp hrate
    simp only [decide_eq_true_eq] at hq
    have hnone : ∀ r ∈ before, r.clockRate ≠ chosen.clockRate := by simpa using hbefore
    rw [Option.some_or, Option.some.injEq]
    constructor
    · rintro rfl
      exact ⟨before, after, hsplit, .inl ⟨hq, hnone⟩⟩
    · rintro ⟨before', after', hsplit', ⟨he, hbefore'⟩ | ⟨-, hall⟩⟩
      · -- the first of a kind is the first of a kind
        have hfirst : o.offeredEvents.find? (fun r => decide (r.clockRate = chosen.clockRate)) =
            some e :=
          List.find?_eq_some_iff_append.mpr
            ⟨by simpa using he, before', after', hsplit', by simpa using hbefore'⟩
        rw [hrate, Option.some.injEq] at hfirst
        exact hfirst
      · have hmem : q ∈ o.offeredEvents := mem_of_find?_eq_some hrate
        exact absurd hq (hall q hmem)
  | none =>
    have hall : ∀ r ∈ o.offeredEvents, r.clockRate ≠ chosen.clockRate := by
      simpa using List.find?_eq_none.mp hrate
    rw [Option.none_or]
    constructor
    · intro hhead
      obtain ⟨after, hsplit⟩ := List.head?_eq_some_iff.mp hhead
      exact ⟨[], after, hsplit, .inr ⟨rfl, hall⟩⟩
    · rintro ⟨before, after, hsplit, ⟨he, -⟩ | ⟨rfl, -⟩⟩
      · have hmem : e ∈ o.offeredEvents := by
          rw [hsplit]
          simp
        exact absurd he (hall e hmem)
      · rw [hsplit]
        rfl

theorem mem_of_eventFor {rate : UInt32}
    (h : o.EventFor rate e) : e ∈ o.rtpmap ∧ e.meaning.isTelephoneEvent = true := by
  obtain ⟨before, after, hsplit, -⟩ := h
  have hmem : e ∈ o.offeredEvents := by
    rw [hsplit]
    simp
  simp only [MediaDescription.offeredEvents, mem_filter, Bool.and_eq_true] at hmem
  exact ⟨hmem.1, hmem.2.1⟩

/-! ## the format parameters -/

section Fmtp

variable {o : MediaDescription} {pt : UInt8}

variable {f : Fmtp} {pts : List UInt8}

theorem isFor_of_format (h : f.format = showNat pt.toNat) : f.isFor pt = true := by
  simp only [Fmtp.isFor, h, parseUnsigned_showNat pt.toNat_lt, decide_true]

theorem isFor_unique {q : UInt8} (hp : f.isFor pt = true) (hq : f.isFor q = true) : pt = q := by
  simp only [Fmtp.isFor, decide_eq_true_eq] at hp hq
  exact UInt8.toNat_inj.mp (mem_unique hp hq)

theorem fmtpFor_eq_some (h : o.fmtpFor pt = some f) : f ∈ o.fmtp ∧ f.format = showNat pt.toNat :=
  ⟨mem_of_find?_eq_some h, by simpa using find?_some h⟩

theorem oneFmtp_iff :
    o.OneFmtp pt ↔ (o.fmtp.filter fun f => f.isFor pt) = (o.fmtpFor pt).toList := by
  constructor
  · rintro ⟨hone, hplain⟩
    cases hfor : o.fmtpFor pt with
    | none =>
      refine List.filter_eq_nil_iff.mpr ?_
      intro f hf hmine
      have := List.find?_eq_none.mp hfor f hf
      simp [hplain f hf hmine] at this
    | some f =>
      obtain ⟨hmem, hformat⟩ := fmtpFor_eq_some hfor
      have hin : f ∈ o.fmtp.filter fun f => f.isFor pt :=
        mem_filter.mpr ⟨hmem, isFor_of_format hformat⟩
      obtain ⟨g, hg⟩ := List.length_eq_one_iff.mp
        (Nat.le_antisymm hone (length_pos_of_mem hin))
      rw [hg, mem_singleton] at hin
      rw [hg, hin]
      rfl
  · intro h
    refine ⟨?_, ?_⟩
    · rw [h]
      exact Option.length_toList_le
    · intro f hf hmine
      have hin : f ∈ (o.fmtpFor pt).toList := by
        rw [← h]
        exact mem_filter.mpr ⟨hf, hmine⟩
      exact (fmtpFor_eq_some (mem_toList.mp hin)).2

theorem filter_filterMap_fmtpFor (hnodup : pts.Nodup) (hpt : pt ∈ pts) :
    ((pts.filterMap o.fmtpFor).filter fun f => f.isFor pt) = (o.fmtpFor pt).toList := by
  induction pts with
  | nil => cases hpt
  | cons q pts ih =>
    obtain ⟨hq, hrest⟩ := List.nodup_cons.mp hnodup
    have hother : ∀ p, p ≠ q → ((o.fmtpFor q).toList.filter fun f => f.isFor p) = [] := by
      intro p hne
      refine List.filter_eq_nil_iff.mpr ?_
      intro f hf hmine
      have hformat := (fmtpFor_eq_some (mem_toList.mp hf)).2
      exact hne (isFor_unique hmine (isFor_of_format hformat))
    have hsplit : (q :: pts).filterMap o.fmtpFor = (o.fmtpFor q).toList ++ pts.filterMap o.fmtpFor := by
      cases hfor : o.fmtpFor q <;> simp [hfor]
    rw [hsplit, filter_append]
    obtain rfl | hmem := mem_cons.mp hpt
    · have hnone : ((pts.filterMap o.fmtpFor).filter fun f => f.isFor pt) = [] := by
        refine List.filter_eq_nil_iff.mpr ?_
        intro f hf hmine
        obtain ⟨p, hp, hfor⟩ := List.mem_filterMap.mp hf
        have hsame := isFor_unique hmine (isFor_of_format (fmtpFor_eq_some hfor).2)
        exact hq (hsame ▸ hp)
      have hall : ((o.fmtpFor pt).toList.filter fun f => f.isFor pt) = (o.fmtpFor pt).toList := by
        refine List.filter_eq_self.mpr ?_
        intro f hf
        exact isFor_of_format (fmtpFor_eq_some (mem_toList.mp hf)).2
      rw [hnone, hall, append_nil]
    · have hne : pt ≠ q := fun heq => hq (heq ▸ hmem)
      rw [hother pt hne, ih hrest hmem, nil_append]

/-- The lines of some payload types, one payload type after the other. -/
theorem perm_filterMap_fmtpFor (hnodup : pts.Nodup) (hone : ∀ pt ∈ pts, o.OneFmtp pt) :
    (pts.filterMap o.fmtpFor).Perm (o.fmtp.filter fun f => pts.any f.isFor) := by
  induction pts with
  | nil => simp
  | cons q pts ih =>
    obtain ⟨hq, hrest⟩ := List.nodup_cons.mp hnodup
    obtain ⟨honeq, honerest⟩ := List.forall_mem_cons.mp hone
    have hsplit : (q :: pts).filterMap o.fmtpFor = (o.fmtpFor q).toList ++ pts.filterMap o.fmtpFor := by
      cases hfor : o.fmtpFor q <;> simp [hfor]
    have hmine : ((o.fmtp.filter fun f => (q :: pts).any f.isFor).filter fun f => f.isFor q) =
        (o.fmtpFor q).toList := by
      rw [← oneFmtp_iff.mp honeq, filter_filter]
      refine filter_congr ?_
      intro f _
      simp only [any_cons]
      cases f.isFor q <;> rfl
    have hothers : ((o.fmtp.filter fun f => (q :: pts).any f.isFor).filter
        fun f => !f.isFor q) = o.fmtp.filter fun f => pts.any f.isFor := by
      rw [filter_filter]
      refine filter_congr ?_
      intro f _
      cases hfor : f.isFor q with
      | false => simp [hfor]
      | true =>
        have hnot : pts.any f.isFor = false := by
          refine List.any_eq_false.mpr ?_
          intro p hp hforp
          exact hq (isFor_unique hfor hforp ▸ hp)
        rw [hnot]
        rfl
    have hperm := filter_append_perm (fun f => f.isFor q)
      (o.fmtp.filter fun f => (q :: pts).any f.isFor)
    rw [hmine, hothers] at hperm
    rw [hsplit]
    exact ((ih hrest honerest).append_left _).trans hperm

theorem fmtp_iff (hnodup : pts.Nodup) :
    (pts.filterMap o.fmtpFor).Perm (o.fmtp.filter fun f => pts.any f.isFor) ↔
      ∀ pt ∈ pts, o.OneFmtp pt := by
  refine ⟨?_, perm_filterMap_fmtpFor hnodup⟩
  intro hperm pt hpt
  have hsub : ((o.fmtp.filter fun f => pts.any f.isFor).filter fun f => f.isFor pt) =
      o.fmtp.filter fun f => f.isFor pt := by
    rw [filter_filter]
    refine filter_congr ?_
    intro f _
    cases hfor : f.isFor pt with
    | false => rfl
    | true => exact List.any_eq_true.mpr ⟨pt, hpt, hfor⟩
  have hmine := hperm.filter fun f => f.isFor pt
  rw [filter_filterMap_fmtpFor hnodup hpt, hsub] at hmine
  rw [oneFmtp_iff]
  cases hfor : o.fmtpFor pt with
  | none =>
    rw [hfor] at hmine
    exact List.perm_nil.mp hmine.symm
  | some f =>
    rw [hfor] at hmine
    exact List.perm_singleton.mp hmine.symm

end Fmtp

/-! ## the accepted block -/

section Block

variable {o : MediaDescription} {supported : List RtpMap} {chosen : RtpMap} {port : UInt16}
  {k : Negotiator.Keying}

/-- The payload types that are accepted. -/
def acceptedPts (o : MediaDescription) (chosen : RtpMap) : List UInt8 :=
  (chosen :: (telephoneEventFor o chosen).toList).map RtpMap.payloadType

theorem acceptedPts_eq (o : MediaDescription) (chosen : RtpMap) :
    acceptedPts o chosen = chosen.payloadType ::
      ((telephoneEventFor o chosen).map RtpMap.payloadType).toList := by
  cases h : telephoneEventFor o chosen <;> simp [acceptedPts, h]

theorem payloadTypes_audioBlock :
    (Negotiator.audioBlock o port chosen k).payloadTypes = acceptedPts o chosen := by
  have hback : ∀ pts : List UInt8, (pts.map fun q => showNat q.toNat).filterMap
      (fun f => (parseUnsigned 8 f).map UInt8.ofNat) = pts := by
    intro pts
    induction pts with
    | nil => rfl
    | cons q pts ih =>
      rw [map_cons, filterMap_cons, parseUnsigned_showNat q.toNat_lt, ih]
      simp
  exact hback _

theorem showNat_inj {p q : UInt8} (h : showNat p.toNat = showNat q.toNat) : p = q := by
  have hp := parseUnsigned_showNat p.toNat_lt
  rw [h, parseUnsigned_showNat q.toNat_lt, Option.some.injEq] at hp
  exact (UInt8.toNat_inj.mp hp).symm

theorem pair_sublist_iff {a b : Text} {l : List Text} :
    [a, b].Sublist l ↔ ∃ before after, l = before ++ a :: after ∧ b ∈ after := by
  constructor
  · intro h
    obtain ⟨front, back, rfl, ha, hb⟩ := List.cons_sublist_iff.mp h
    obtain ⟨before, after, rfl⟩ := append_of_mem ha
    refine ⟨before, after ++ back, by simp, ?_⟩
    exact mem_append_right after (List.singleton_sublist.mp hb)
  · rintro ⟨before, after, rfl, hb⟩
    exact ((List.singleton_sublist.mpr hb).cons_cons a).trans (sublist_append_right before _)

variable {pt : UInt8}

theorem chosen_of_clear (hfirst : o.payloadTypes.find? (o.candidate supported) = some pt)
    (hassigned : o.rtpmapFor pt = none →
      ∃ s w, (supported.find? fun s => decide (s.payloadType = pt)) = some s ∧
        staticMeaning pt = some w ∧ s.meaning.same w = true)
    (hchosen : chooseCodec o supported = some chosen) :
    chosen.payloadType = pt ∧ o.payloadTypes.find? (o.understood supported) = some pt ∧
      ∃ w, o.meaningOf pt = some w ∧ chosen.meaning.same w = true := by
  rw [candidate_eq] at hfirst
  have hcandidate := find?_some hfirst
  cases hmap : o.rtpmapFor pt with
  | some r =>
    rw [taken_of_rtpmap hmap] at hcandidate
    have hunderstood : o.understood supported pt = true := by
      cases h : o.understood supported pt with
      | true => rfl
      | false =>
        rw [h] at hcandidate
        contradiction
    have htaken : taken o supported pt = some r := by
      rw [taken_of_rtpmap hmap, if_pos hunderstood]
    have hsame := findSome?_of_first hfirst htaken
    rw [← chooseCodec_eq, hchosen, Option.some.injEq] at hsame
    subst hsame
    refine ⟨(payloadType_of_rtpmapFor hmap).2, find?_of_first hfirst hunderstood, chosen.meaning,
      ?_, ?_⟩
    · simp only [MediaDescription.meaningOf, hmap]
    · exact Meaning.same_iff.mpr ⟨rfl, rfl⟩
  | none =>
    obtain ⟨s, w, hs, hw, hstates⟩ := hassigned hmap
    have hmeaning : o.meaningOf pt = some w := by
      simp only [MediaDescription.meaningOf, hmap, hw]
    have hunderstood : o.understood supported pt = true := by
      rw [MediaDescription.understood, hmeaning, any_some, any_eq_true]
      exact ⟨s, mem_of_find?_eq_some hs, hstates⟩
    have htaken : taken o supported pt = some s := by
      rw [taken_of_none hmap, hs]
    have hsame := findSome?_of_first hfirst htaken
    rw [← chooseCodec_eq, hchosen, Option.some.injEq] at hsame
    subst hsame
    exact ⟨by simpa using find?_some hs, find?_of_first hfirst hunderstood, w, hmeaning,
      hstates⟩

/-- What the block states about the codec decides the reading of its number. -/
theorem assigned_of_stated (hfirst : o.payloadTypes.find? (o.candidate supported) = some pt)
    (hchosen : chooseCodec o supported = some chosen)
    (hunderstood : o.payloadTypes.find? (o.understood supported) = some chosen.payloadType)
    (hstated : ∃ w, o.meaningOf chosen.payloadType = some w ∧ chosen.meaning.same w = true) :
    pt = chosen.payloadType ∧ (o.rtpmapFor pt = none →
      ∃ s w, (supported.find? fun s => decide (s.payloadType = pt)) = some s ∧
        staticMeaning pt = some w ∧ s.meaning.same w = true) := by
  rw [candidate_eq] at hfirst
  have hsame : pt = chosen.payloadType := by
    have hcandidate := find?_some hfirst
    rw [Bool.or_eq_true] at hcandidate
    obtain hmine | htaken := hcandidate
    · have := find?_of_first hfirst hmine
      rw [hunderstood, Option.some.injEq] at this
      exact this.symm
    · obtain ⟨r, hr⟩ := isSome_iff_exists.mp htaken
      have := findSome?_of_first hfirst hr
      rw [← chooseCodec_eq, hchosen, Option.some.injEq] at this
      rw [this, payloadType_of_taken hr]
  refine ⟨hsame, ?_⟩
  intro hmap
  obtain ⟨w, hw, hstates⟩ := hstated
  rw [← hsame, MediaDescription.meaningOf, hmap] at hw
  have htaken : taken o supported pt = some chosen := by
    obtain ⟨q, -, hq⟩ := exists_of_findSome?_eq_some
      ((chooseCodec_eq o supported).symm.trans hchosen)
    rw [hsame, payloadType_of_taken hq, hq]
  exact ⟨chosen, w, (taken_of_none hmap).symm.trans htaken, hw, hstates⟩

/-- A telephone-event that goes with a codec the offer is clear about. -/
theorem event_of_clear {w : Meaning} {e : RtpMap} (hclear : o.Clear supported pt)
    (hmeaning : o.meaningOf pt = some w) (hevent : o.EventFor w.clockRate e) :
    (∃ v, o.meaningOf e.payloadType = some v ∧ e.meaning.same v = true) ∧
      o.isTone e.payloadType = true ∧
      [showNat pt.toNat, showNat e.payloadType.toNat].Sublist o.formats ∧
      o.OneFmtp e.payloadType := by
  obtain ⟨hfirst, hafter, hone⟩ := hclear.event w e hmeaning hevent
  obtain ⟨hmem, htone⟩ := mem_of_eventFor hevent
  obtain ⟨r, hr⟩ : ∃ r, o.rtpmapFor e.payloadType = some r := by
    apply isSome_iff_exists.mp
    rw [MediaDescription.rtpmapFor, find?_isSome]
    exact ⟨e, hmem, by simp⟩
  have hsays : o.meaningOf e.payloadType = some r.meaning := by
    simp only [MediaDescription.meaningOf, hr]
  refine ⟨⟨r.meaning, hsays, hfirst r hr⟩, ?_, pair_sublist_iff.mpr hafter, hone⟩
  rw [MediaDescription.isTone, hsays, any_some,
    ← Meaning.isTelephoneEvent_of_same (hfirst r hr), htone]

theorem clear_of_accepted (hchosen : chooseCodec o supported = some chosen)
    (h : Accepted o supported (Negotiator.audioBlock o port chosen k))
    (hfirst : o.payloadTypes.find? (o.candidate supported) = some pt) : o.Clear supported pt := by
  have hformats : (Negotiator.audioBlock o port chosen k).formats =
      (acceptedPts o chosen).map fun q => showNat q.toNat := rfl
  have hnodup : (acceptedPts o chosen).Nodup := by
    have := h.nodup
    rw [hformats] at this
    exact this.of_map
  obtain ⟨q, event, hlist, hunderstood, hvoice, -⟩ := h.codec
  have hq : q = chosen.payloadType := by
    rw [hformats, acceptedPts_eq, map_cons, map_cons] at hlist
    exact (showNat_inj (List.cons.inj hlist).1).symm
  subst hq
  have hstated := h.stated chosen (mem_cons_self ..)
  obtain ⟨rfl, hassigned⟩ := assigned_of_stated hfirst hchosen hunderstood hstated
  have hfmtp := h.fmtp
  rw [payloadTypes_audioBlock] at hfmtp
  have hone := (fmtp_iff hnodup).mp hfmtp
  refine
    { assigned := hassigned
      voice := hvoice
      token := ?_
      fmtp := hone _ (by simp [acceptedPts])
      event := ?_ }
  · apply h.sublist.subset
    rw [hformats]
    simp [acceptedPts]
  · intro w e hw hevent
    obtain ⟨v, hv, hsame⟩ := hstated
    rw [hw, Option.some.injEq] at hv
    subst hv
    rw [← (Meaning.same_iff.mp hsame).2] at hevent
    have htaken : telephoneEventFor o chosen = some e := telephoneEventFor_iff.mpr hevent
    have hpts : acceptedPts o chosen = [chosen.payloadType, e.payloadType] := by
      rw [acceptedPts, htaken]
      rfl
    have hrtpmap : (Negotiator.audioBlock o port chosen k).rtpmap = [chosen, e] := by
      show chosen :: (telephoneEventFor o chosen).toList = [chosen, e]
      rw [htaken]
      rfl
    refine ⟨?_, ?_, hone _ (by simp [hpts])⟩
    · intro r hr
      obtain ⟨v, hv, hstates⟩ := h.stated e (by simp [hrtpmap])
      simp only [MediaDescription.meaningOf, hr, Option.some.injEq] at hv
      rw [hv]
      exact hstates
    · have hsub := h.sublist
      rw [hformats, hpts] at hsub
      exact pair_sublist_iff.mp hsub

theorem accepted_of_clear (hchosen : chooseCodec o supported = some chosen)
    (h : ∀ pt, o.payloadTypes.find? (o.candidate supported) = some pt → o.Clear supported pt) :
    Accepted o supported (Negotiator.audioBlock o port chosen k) := by
  obtain ⟨pt, hfirst⟩ := candidate_of_chooseCodec hchosen
  have hclear := h pt hfirst
  obtain ⟨rfl, hunderstood, w, hw, hsame⟩ := chosen_of_clear hfirst hclear.assigned hchosen
  have hrate : chosen.clockRate = w.clockRate := (Meaning.same_iff.mp hsame).2
  have hformats : (Negotiator.audioBlock o port chosen k).formats =
      (acceptedPts o chosen).map fun q => showNat q.toNat := rfl
  have hrtpmap : (Negotiator.audioBlock o port chosen k).rtpmap =
      chosen :: (telephoneEventFor o chosen).toList := rfl
  have hfmtp : (Negotiator.audioBlock o port chosen k).fmtp =
      (acceptedPts o chosen).filterMap o.fmtpFor := rfl
  have hevent : ∀ e, telephoneEventFor o chosen = some e → o.EventFor w.clockRate e := by
    intro e he
    rw [← hrate]
    exact telephoneEventFor_iff.mp he
  have hnodup : (acceptedPts o chosen).Nodup := by
    rw [acceptedPts]
    cases he : telephoneEventFor o chosen with
    | none => simp
    | some e =>
      obtain ⟨-, htone, -⟩ := event_of_clear hclear hw (hevent e he)
      have hne : chosen.payloadType ≠ e.payloadType := by
        intro heq
        rw [← heq, hclear.voice] at htone
        contradiction
      simpa using hne
  refine
    { nodup := ?_
      sublist := ?_
      codec := ⟨chosen.payloadType, (telephoneEventFor o chosen).map RtpMap.payloadType, ?_,
        hunderstood, hclear.voice, ?_⟩
      mapped := payloadTypes_audioBlock.symm
      stated := ?_
      fmtp := ?_
      rtcpFb := ?_ }
  · rw [hformats]
    exact hnodup.map fun _ _ => showNat_inj
  · rw [hformats, acceptedPts]
    cases he : telephoneEventFor o chosen with
    | none => exact List.singleton_sublist.mpr hclear.token
    | some e => exact (event_of_clear hclear hw (hevent e he)).2.2.1
  · rw [hformats, acceptedPts_eq]
  · intro q hq
    obtain ⟨e, he, rfl⟩ := map_eq_some_iff.mp hq
    exact (event_of_clear hclear hw (hevent e he)).2.1
  · intro r hr
    rw [hrtpmap, mem_cons, mem_toList] at hr
    obtain rfl | he := hr
    · exact ⟨w, hw, hsame⟩
    · exact (event_of_clear hclear hw (hevent r he)).1
  · rw [payloadTypes_audioBlock, hfmtp]
    refine perm_filterMap_fmtpFor hnodup ?_
    intro q hq
    rw [acceptedPts_eq, mem_cons, mem_toList] at hq
    obtain rfl | hq := hq
    · exact hclear.fmtp
    · obtain ⟨e, he, rfl⟩ := map_eq_some_iff.mp hq
      exact (event_of_clear hclear hw (hevent e he)).2.2.2
  · rw [payloadTypes_audioBlock]
    rfl

end Block

/-! ## the result -/

namespace Negotiator

variable {n : Negotiator} {fresh : Fresh} {offer : SessionDescription} {o : MediaDescription}
  {port : UInt16}

theorem answer_of_audio (hfind : (offer.media.find? fun m => decide (m.kind = .audio)) = some o)
    (hport : o.port ≠ 0) : n.answer fresh offer port =
      match chooseCodec o n.supported with
      | none => .mismatch
      | some chosen =>
        match n.keying fresh offer o port with
        | .error r => r
        | .ok k =>
          .answer ⟨n.session fresh offer [audioBlock o port chosen k], k.srtp, k.dtls, k.ice⟩ := by
  unfold answer
  rw [hfind]
  exact if_neg hport

theorem mismatch_ne (a : Answer) : NegotiationResult.mismatch ≠ .answer a := by
  intro h
  cases h

theorem unsupportedTransport_ne (reason : Text) (a : Answer) :
    NegotiationResult.unsupportedTransport reason ≠ .answer a := by
  intro h
  cases h

/-- Keying fails where there is nothing to key with, and without an answer. -/
theorem keying_of_keyable (n : Negotiator) (fresh : Fresh) (offer : SessionDescription)
    (o : MediaDescription) (port : UInt16) :
    (n.keyable o = true ∧ ∃ k, n.keying fresh offer o port = .ok k) ∨
      (n.keyable o = false ∧ ∃ r, n.keying fresh offer o port = .error r ∧
        ∀ a, r ≠ .answer a) := by
  unfold keying keyable
  by_cases hdtls : isDtlsSrtpProfile o.protocol = true
  · simp only [hdtls, if_true]
    cases n.dtlsCert with
    | none => exact .inr ⟨rfl, _, rfl, unsupportedTransport_ne _⟩
    | some cert =>
      cases o.fingerprint with
      | none => exact .inr ⟨rfl, _, rfl, unsupportedTransport_ne _⟩
      | some peer => exact .inl ⟨rfl, _, rfl⟩
  · simp only [hdtls, Bool.false_eq_true, if_false]
    by_cases hsavp : isSavpProfile o.protocol = true
    · simp only [hsavp, if_true]
      cases o.crypto with
      | nil => exact .inr ⟨rfl, _, rfl, mismatch_ne⟩
      | cons c rest => exact .inl ⟨rfl, _, rfl⟩
    · simp only [hsavp, Bool.false_eq_true, if_false]
      exact .inl ⟨trivial, _, rfl⟩

end Negotiator

/-- Nothing is understood where the code takes nothing, if the offer is clear. -/
theorem candidates_of_chooseCodec_none {supported : List RtpMap}
    (h : chooseCodec o supported = none) :
    (∀ pt ∈ o.payloadTypes, o.understood supported pt = false) ↔
      ∀ pt, o.payloadTypes.find? (o.candidate supported) = some pt → o.Clear supported pt := by
  rw [chooseCodec_eq, findSome?_eq_none_iff] at h
  constructor
  · intro hnone pt hfirst
    have hmem := mem_of_find?_eq_some hfirst
    have hcandidate := find?_some hfirst
    simp only [candidate_eq, hnone pt hmem, h pt hmem] at hcandidate
    contradiction
  · intro hclear pt hpt
    cases hunderstood : o.understood supported pt with
    | false => rfl
    | true =>
      obtain ⟨q, hfirst⟩ : ∃ q, o.payloadTypes.find? (o.candidate supported) = some q := by
        apply isSome_iff_exists.mp
        rw [find?_isSome]
        exact ⟨pt, hpt, by simp [MediaDescription.candidate, hunderstood]⟩
      have hq := h q (mem_of_find?_eq_some hfirst)
      have hcandidate := find?_some hfirst
      simp only [candidate_eq, hq, Option.isSome_none, Bool.or_false] at hcandidate
      -- a payload type that is understood and not taken has no rtpmap
      cases hmap : o.rtpmapFor q with
      | some r =>
        rw [taken_of_rtpmap hmap, if_pos hcandidate] at hq
        contradiction
      | none =>
        obtain ⟨s, w, hs, -⟩ := (hclear q hfirst).assigned hmap
        rw [taken_of_none hmap, hs] at hq
        contradiction

theorem choice_answer_iff (n : Negotiator) (fresh : Fresh) (offer : SessionDescription)
    (port : UInt16) : CodecChoice n offer (n.answer fresh offer port) ↔ ClearOffer n offer := by
  cases hfind : offer.media.find? fun m => decide (m.kind = .audio) with
  | none =>
    have hanswer : n.answer fresh offer port = .mismatch := by
      simp only [Negotiator.answer, hfind]
    rw [hanswer]
    simp [CodecChoice, ClearOffer, hfind]
  | some o =>
    by_cases hport : o.port = 0
    · have hanswer : n.answer fresh offer port =
          .answer ⟨n.session fresh offer [rejectedStream o], none, none, none⟩ := by
        simp only [Negotiator.answer, hfind, if_pos hport]
      rw [hanswer]
      simp [CodecChoice, ClearOffer, hfind, hport]
    · rw [Negotiator.answer_of_audio hfind hport]
      cases hchosen : chooseCodec o n.supported with
      | none =>
        simp only [CodecChoice, ClearOffer, hfind, Option.some.injEq, forall_eq', ne_eq, hport,
          not_false_eq_true, forall_const]
        rw [candidates_of_chooseCodec_none hchosen]
        cases n.keyable o <;> simp
      | some chosen =>
        obtain ⟨hkeyable, k, hk⟩ | ⟨hkeyable, r, hr, hno⟩ :=
          n.keying_of_keyable fresh offer o port
        · rw [hk]
          constructor
          · intro h o' ho' _ _ pt hfirst
            obtain rfl : o = o' := mem_unique hfind ho'
            obtain ⟨m, hm, haccepted⟩ := h o hfind hport
            obtain rfl := Option.some.inj hm
            exact clear_of_accepted hchosen haccepted hfirst
          · intro h o' ho' _
            obtain rfl : o = o' := mem_unique hfind ho'
            exact ⟨_, rfl, accepted_of_clear hchosen fun pt hfirst => h o hfind hport hkeyable pt hfirst⟩
        · rw [hr]
          simp only [ClearOffer, hfind, Option.some.injEq, forall_eq', hkeyable,
            Bool.false_eq_true, false_implies, implies_true, iff_true]
          cases r with
          | answer a => exact absurd rfl (hno a)
          | mismatch =>
            simp only [CodecChoice, hfind, Option.some.injEq, forall_eq', hkeyable, or_true]
          | unsupportedTransport reason => trivial

theorem choice_answerWithVideo (n : Negotiator) (fresh : Fresh) (offer : SessionDescription)
    (audioPort : UInt16) (videoPort : Option UInt16) :
    CodecChoice n offer (n.answerWithVideo fresh offer audioPort videoPort) ↔
      CodecChoice n offer (n.answer fresh offer audioPort) := by
  unfold Negotiator.answerWithVideo
  cases n.answer fresh offer audioPort with
  | mismatch => exact Iff.rfl
  | unsupportedTransport reason => exact Iff.rfl
  | answer a =>
    dsimp only
    split
    · next video m _ hhead =>
      simp only [CodecChoice, head?_append, hhead, Option.some_or]
    · exact Iff.rfl

/-- **The answer takes the first payload type that stands for a supported codec,
and says of it what the offer says, exactly for the clear offers.** -/
theorem codec_choice (n : Negotiator) (fresh : Fresh) (offer : SessionDescription)
    (audioPort : UInt16) (videoPort : Option UInt16) :
    (CodecChoice n offer (n.answer fresh offer audioPort) ↔ ClearOffer n offer) ∧
      (CodecChoice n offer (n.answerWithVideo fresh offer audioPort videoPort) ↔
        ClearOffer n offer) := by
  have haudio := choice_answer_iff n fresh offer audioPort
  exact ⟨haudio, (choice_answerWithVideo n fresh offer audioPort videoPort).trans haudio⟩

/-- A dynamic payload type without an rtpmap stands for nothing, and is answered
as the codec that has this number here. -/
theorem placeholder_answered :
    ¬ ∀ (conv : Conv) (s : Text) (n : Negotiator) (fresh : Fresh) (offer : SessionDescription)
      (audioPort : UInt16), SessionDescription.parse conv s = .ok offer →
      CodecChoice n offer (n.answer fresh offer audioPort) := by
  intro h
  have hbare : (sampleNegotiated ["m=audio 4000 RTP/AVP 111"]).map (fun x =>
      (x.1.media.find? fun m => decide (m.kind = .audio)).any fun o =>
        decide (o.port ≠ 0) && sampleNegotiator.keyable o &&
          decide (o.payloadTypes.find? (o.candidate sampleNegotiator.supported) = some 111) &&
          decide (o.rtpmapFor 111 = none)) = some true := by
    decide +kernel
  obtain ⟨x, hx, hbare⟩ := map_eq_some_iff.mp hbare
  rw [Option.any_eq_true] at hbare
  obtain ⟨o, hfind, hbare⟩ := hbare
  simp only [Bool.and_eq_true, decide_eq_true_eq] at hbare
  obtain ⟨⟨⟨hport, hkeyable⟩, hfirst⟩, hmap⟩ := hbare
  obtain ⟨hparse, -⟩ := negotiated_eq_some hx
  have hclear := (choice_answer_iff _ _ _ _).mp
    (h sampleConv _ sampleNegotiator sampleFresh x.1 5000 hparse)
  obtain ⟨s, w, -, hw, -⟩ := (hclear o hfind hport hkeyable 111 hfirst).assigned hmap
  have hnone : staticMeaning 111 = none := by decide
  rw [hnone] at hw
  contradiction

end SmithsNet.Sdp
