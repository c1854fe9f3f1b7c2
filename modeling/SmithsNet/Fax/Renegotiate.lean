import SmithsNet.Sdp.Types

/-!
# SmithsNet.Fax.Renegotiate

The switch of an audio call to T.38 (`smiths-fax/src/renegotiate.rs`, `sdp.rs`): the
offer that declines audio and adds an image block, and the answer to such an offer.

Both look at a block's kind and formats, and neither at its port: a T.38 block that was
declined earlier counts as one.  Only the first audio block is declined, and the groups
of the session stay as they are.

`faxSwitch_iff`: when they do what a switch is for.
-/

namespace SmithsNet.Fax

open Lib SmithsNet.Core Sdp

/-! ## the code -/

def UDPTL_PROTOCOL : Text := "udptl".toList

def T38_FORMAT : Text := "t38".toList

def isT38Media (m : MediaDescription) : Bool :=
  decide (m.kind = .image) &&
    (splitWhitespace m.protocol).head?.any (eqIgnoreAsciiCase · UDPTL_PROTOCOL) &&
    (m.formats.isEmpty || m.hasFormat T38_FORMAT)

def findFaxMedia (sdp : SessionDescription) : Option Nat := sdp.media.findIdx? isT38Media

def t38Media (port : UInt16) (params : T38Params) : MediaDescription where
  kind := .image
  port := port
  protocol := UDPTL_PROTOCOL
  formats := [T38_FORMAT]
  t38 := some params

def declined (m : MediaDescription) : MediaDescription where
  kind := m.kind
  port := 0
  protocol := m.protocol
  formats := m.formats
  mid := m.mid
  direction := .inactive

inductive FaxRenegotiateError
  | noAudioMLine
  | alreadyFax

def isAudio (m : MediaDescription) : Bool := decide (m.kind = .audio)

/-- `u64::saturating_add(1)` -/
def nextVersion (version : UInt64) : UInt64 := UInt64.ofNat (min (version.toNat + 1) (2 ^ 64 - 1))

def faxRenegotiate (active : SessionDescription) (localAddr : ConnectionInfo) (localFaxPort : UInt16)
    (params : T38Params) : Except FaxRenegotiateError SessionDescription :=
  if active.media.any isT38Media then .error .alreadyFax
  else
    match active.media.findIdx? isAudio with
    | none => .error .noAudioMLine
    | some audioIdx =>
      .ok { active with
        connection := some localAddr
        origin := { active.origin with sessionVersion := nextVersion active.origin.sessionVersion }
        media := active.media.modify audioIdx declined ++ [t38Media localFaxPort params] }

/-- The block that takes up a T.38 block of the offer. -/
def faxAnswer (m : MediaDescription) (localFaxPort : UInt16) : MediaDescription where
  kind := .image
  port := localFaxPort
  protocol := m.protocol
  formats := if m.formats.isEmpty then [T38_FORMAT] else m.formats
  mid := m.mid
  t38 := m.t38

def answerFaxOffer (offer : SessionDescription) (origin : Origin) (answerAddr : ConnectionInfo)
    (localFaxPort : UInt16) : Option SessionDescription :=
  (findFaxMedia offer).map fun faxIdx =>
    { origin := origin
      sessionName := "-".toList
      connection := some answerAddr
      groups := []
      iceLite := false
      media := offer.media.mapIdx fun idx m => if idx = faxIdx then faxAnswer m localFaxPort else declined m }

/-! ## what a switch is for -/

/-- A T.38 block on a port. -/
def liveFax (m : MediaDescription) : Bool := isT38Media m && decide (m.port ≠ 0)

/-- What an answer keeps of a block. -/
def outline (m : MediaDescription) : MediaKind × Text × Option Text := (m.kind, m.protocol, m.mid)

/-- The blocks are in place, all but one as they were, no audio is left, one live T.38 block is
new, no group names a declined block, and the version is raised. -/
structure Switched (d next : SessionDescription) : Prop where
  kept : (next.media.take d.media.length).map outline = d.media.map outline
  others : ∃ i, next.media.take d.media.length = d.media.modify i declined
  silent : ∀ m ∈ next.media, m.kind = .audio → m.port = 0
  added : ∃ m, next.media.drop d.media.length = [m] ∧ liveFax m = true
  bundled : ∀ mid ∈ next.bundleMids, ∃ m ∈ next.media, m.mid = some mid ∧ m.port ≠ 0
  raised : d.origin.sessionVersion < next.origin.sessionVersion

/-- The answer takes up one block, which the offer has live, and declines the others. -/
structure Accepts (offer a : SessionDescription) (i : Nat) : Prop where
  aligned : a.media.map outline = offer.media.map outline
  live : ∃ m, offer.media[i]? = some m ∧ liveFax m = true
  taken : ∃ m, a.media[i]? = some m ∧ liveFax m = true
  others : ∀ j m, a.media[j]? = some m → j ≠ i → m.port = 0

structure FaxSwitch (d : SessionDescription) (addr : ConnectionInfo) (port : UInt16) (params : T38Params)
    (offer : SessionDescription) (origin : Origin) (answerAddr : ConnectionInfo) (answerPort : UInt16) : Prop where
  fails : (∃ e, faxRenegotiate d addr port params = .error e) ↔
    (∀ m ∈ d.media, isAudio m = false) ∨ ∃ m ∈ d.media, liveFax m = true
  switched : ∀ next, faxRenegotiate d addr port params = .ok next → Switched d next
  answers : ∀ a, answerFaxOffer offer origin answerAddr answerPort = some a → ∃ i, Accepts offer a i
  declines : answerFaxOffer offer origin answerAddr answerPort = none ↔ ∀ m ∈ offer.media, liveFax m = false
  accepted : ∀ next, faxRenegotiate d addr port params = .ok next →
    ∃ a, answerFaxOffer next origin answerAddr answerPort = some a ∧ Accepts next a d.media.length

/-- The blocks that `faxRenegotiate` leaves as they are. -/
def others (d : SessionDescription) : List MediaDescription := d.media.eraseP isAudio

/-- If there is audio: a T.38 block only with one that is live, and without a T.38 block no
other audio on a port, only live blocks in the groups, and a version that can be raised. -/
def Switchable (d : SessionDescription) : Prop :=
  (∃ m ∈ d.media, isAudio m = true) →
    if d.media.any isT38Media then ∃ m ∈ d.media, liveFax m = true
    else (∀ m ∈ others d, isAudio m = true → m.port = 0) ∧
      (∀ mid ∈ d.bundleMids, ∃ m ∈ others d, m.mid = some mid ∧ m.port ≠ 0) ∧
      d.origin.sessionVersion.toNat ≠ 2 ^ 64 - 1

/-- The first T.38 block is live, if there is one. -/
def Answerable (offer : SessionDescription) : Prop := ∀ m ∈ offer.media.find? isT38Media, m.port ≠ 0

instance (d : SessionDescription) : Decidable (Switchable d) := inferInstanceAs (Decidable (_ → _))

instance (offer : SessionDescription) : Decidable (Answerable offer) := 
  inferInstanceAs (Decidable (∀ _ ∈ _, _))

/-! ## the answer -/

variable {d offer next : SessionDescription} {addr : ConnectionInfo} {port : UInt16} {params : T38Params}
    {origin : Origin} {m : MediaDescription} {before after : List MediaDescription} {p : MediaDescription → Bool}

theorem findIdx?_split (hbefore : ∀ x ∈ before, ¬ p x = true) (hm : p m = true) :
    (before ++ m :: after).findIdx? p = some before.length := by
  have hnone : before.findIdx? p = none := List.findIdx?_eq_none_iff.mpr fun x hx => by simpa using hbefore x hx
  simp [List.findIdx?_append, hnone, List.findIdx?_cons, hm]

theorem kind_of_isT38Media (h : isT38Media m = true) : m.kind = .image := by
  simp only [isT38Media, Bool.and_eq_true, decide_eq_true_eq] at h
  exact h.1.1

theorem isT38Media_faxAnswer (h : isT38Media m = true) : isT38Media (faxAnswer m port) = true := by
  simp only [isT38Media, faxAnswer, Bool.and_eq_true, decide_true, true_and] at h ⊢
  refine ⟨h.1.2, ?_⟩
  cases hformats : m.formats with
  | nil => simp [MediaDescription.hasFormat, eqIgnoreAsciiCase]
  | cons f fs => simpa [hformats, MediaDescription.hasFormat] using h.2

theorem liveFax_eq_true : liveFax m = true ↔ isT38Media m = true ∧ m.port ≠ 0 := by
  simp [liveFax]

theorem answerFaxOffer_split (origin : Origin) (addr : ConnectionInfo) (port : UInt16)
    (hmedia : offer.media = before ++ m :: after)
    (hbefore : ∀ x ∈ before, ¬ isT38Media x = true) (hm : isT38Media m = true) :
    ∃ a, answerFaxOffer offer origin addr port = some a ∧
      ∀ j, a.media[j]? = offer.media[j]?.map fun x => if j = before.length then faxAnswer x port else declined x := by
  refine ⟨_, by rw [answerFaxOffer, findFaxMedia, hmedia, findIdx?_split hbefore hm]; rfl, fun j => ?_⟩
  simp only [List.getElem?_mapIdx, hmedia]

theorem accepts_iff (hport : port ≠ 0) (hmedia : offer.media = before ++ m :: after)
    (hbefore : ∀ x ∈ before, ¬ isT38Media x = true) (hm : isT38Media m = true) {a : SessionDescription}
    (ha : answerFaxOffer offer origin addr port = some a) (i : Nat) :
    Accepts offer a i ↔ i = before.length ∧ m.port ≠ 0 := by
  obtain ⟨b, hb, hslots⟩ := answerFaxOffer_split origin addr port hmedia hbefore hm
  obtain rfl : b = a := Option.mem_unique hb ha
  have hplace : offer.media[before.length]? = some m := by simp [hmedia]
  have htaken : b.media[before.length]? = some (faxAnswer m port) := by
    rw [hslots, hplace, Option.map_some, if_pos rfl]
  constructor
  · intro h
    have hi : i = before.length := by
      by_contra hne
      exact hport (h.others _ _ htaken fun heq => hne heq.symm)
    obtain ⟨x, hx, hlive⟩ := h.live
    rw [hi, hplace, Option.some.injEq] at hx
    exact ⟨hi, hx ▸ (liveFax_eq_true.mp hlive).2⟩
  · rintro ⟨rfl, hlive⟩
    refine ⟨?_, ⟨m, hplace, liveFax_eq_true.mpr ⟨hm, hlive⟩⟩,
      ⟨_, htaken, liveFax_eq_true.mpr ⟨isT38Media_faxAnswer hm, hport⟩⟩, fun j x hx hne => ?_⟩
    · refine List.ext_getElem? fun j => ?_
      rw [List.getElem?_map, List.getElem?_map, hslots]
      by_cases hj : j = before.length
      · rw [hj, hplace]
        simp only [Option.map_some, if_pos]
        rw [outline, outline, kind_of_isT38Media hm]
        rfl
      · simp only [if_neg hj, Option.map_map]
        rfl
    · simp only [hslots, if_neg hne] at hx
      obtain ⟨y, -, rfl⟩ := Option.map_eq_some_iff.mp hx
      rfl

theorem answerFaxOffer_none (h : offer.media.find? isT38Media = none) (origin : Origin) (addr : ConnectionInfo)
    (port : UInt16) : answerFaxOffer offer origin addr port = none := by
  rw [answerFaxOffer, findFaxMedia, List.findIdx?_eq_none_iff.mpr fun x hx => by simpa using List.find?_eq_none.mp h x hx]
  rfl

theorem accepts_iff_answerable (hport : port ≠ 0) (origin : Origin) (addr : ConnectionInfo) :
    ((∀ a, answerFaxOffer offer origin addr port = some a → ∃ i, Accepts offer a i) ∧
      (answerFaxOffer offer origin addr port = none ↔ ∀ m ∈ offer.media, liveFax m = false)) ↔ Answerable offer := by
  cases hfind : offer.media.find? isT38Media with
  | none =>
    have hnone := answerFaxOffer_none hfind origin addr port
    refine iff_of_true ⟨fun a ha => by rw [hnone] at ha; contradiction, iff_of_true hnone fun m hm => ?_⟩
      fun m hm => by rw [hfind] at hm; contradiction
    have hno := List.find?_eq_none.mp hfind m hm
    simp [liveFax, hno]
  | some m =>
    obtain ⟨hm, before, after, hmedia, hbefore⟩ := List.find?_eq_some_iff_append.mp hfind
    have hbefore : ∀ x ∈ before, ¬ isT38Media x = true := fun x hx => by simpa using hbefore x hx
    obtain ⟨a, ha, -⟩ := answerFaxOffer_split origin addr port hmedia hbefore hm
    have hiff := accepts_iff hport hmedia hbefore hm ha
    constructor
    · rintro ⟨hanswers, -⟩ x hx
      rw [hfind, Option.mem_some_iff] at hx
      obtain ⟨i, hi⟩ := hanswers a ha
      exact hx ▸ ((hiff i).mp hi).2
    · intro h
      refine ⟨fun b hb => ⟨before.length, ?_⟩, iff_of_false (by rw [ha]; nofun) fun hdead => ?_⟩
      · obtain rfl : a = b := Option.mem_unique ha hb
        exact (hiff _).mpr ⟨rfl, h m hfind⟩
      · have hlive := hdead m (by rw [hmedia]; simp)
        rw [liveFax_eq_true.mpr ⟨hm, h m hfind⟩] at hlive
        contradiction

/-! ## the offer -/

theorem liveFax_t38Media (hport : port ≠ 0) (params : T38Params) : liveFax (t38Media port params) = true := by
  simp [liveFax, isT38Media, t38Media, MediaDescription.hasFormat, eqIgnoreAsciiCase, hport]
  decide

theorem isT38Media_of_isAudio (h : isAudio m = true) : isT38Media m = false ∧ isT38Media (declined m) = false := by
  have hkind : m.kind = .audio := by simpa [isAudio] using h
  simp [isT38Media, declined, hkind]

theorem exists_audio (h : ∃ m ∈ d.media, isAudio m = true) : ∃ before m after, d.media = before ++ m :: after ∧
    isAudio m = true ∧ others d = before ++ after ∧ d.media.findIdx? isAudio = some before.length := by
  obtain ⟨x, hx, haudio⟩ := h
  obtain ⟨m, before, after, hbefore, hm, hmedia, hrest⟩ := List.exists_of_eraseP hx haudio
  exact ⟨before, m, after, hmedia, hm, hrest, by rw [hmedia]; exact findIdx?_split hbefore hm⟩

theorem faxRenegotiate_error (h : d.media.any isT38Media = true ∨ ∀ m ∈ d.media, isAudio m = false)
    (addr : ConnectionInfo) (port : UInt16) (params : T38Params) : ∃ e, faxRenegotiate d addr port params = .error e := by
  unfold faxRenegotiate
  split
  · exact ⟨_, rfl⟩
  · next hnone =>
    rw [List.findIdx?_eq_none_iff.mpr (h.resolve_left hnone)]
    exact ⟨_, rfl⟩

theorem modify_declined (hmedia : d.media = before ++ m :: after) :
    d.media.modify before.length declined = before ++ declined m :: after := by
  have hlt : before.length < d.media.length := by simp [hmedia]
  rw [List.modify_eq_take_cons_drop hlt]
  simp [hmedia]

theorem faxRenegotiate_ok (hnone : ¬ d.media.any isT38Media = true) (hmedia : d.media = before ++ m :: after)
    (hidx : d.media.findIdx? isAudio = some before.length) (addr : ConnectionInfo) (port : UInt16) (params : T38Params) :
    ∃ next, faxRenegotiate d addr port params = .ok next ∧
      next.media = before ++ declined m :: after ++ [t38Media port params] ∧ next.groups = d.groups ∧
      next.origin.sessionVersion = nextVersion d.origin.sessionVersion := by
  refine ⟨{ d with
    connection := some addr
    origin := { d.origin with sessionVersion := nextVersion d.origin.sessionVersion }
    media := d.media.modify before.length declined ++ [t38Media port params] }, ?_, ?_, rfl, rfl⟩
  · rw [faxRenegotiate, if_neg hnone, hidx]
  · show d.media.modify before.length declined ++ _ = _
    rw [modify_declined hmedia]

theorem lt_nextVersion_iff (v : UInt64) : v < nextVersion v ↔ v.toNat ≠ 2 ^ 64 - 1 := by
  have hlt := v.toNat_lt
  have hval : (nextVersion v).toNat = min (v.toNat + 1) (2 ^ 64 - 1) :=
    UInt64.toNat_ofNat_of_lt' (by show _ < 2 ^ 64; omega)
  rw [UInt64.lt_iff_toNat_lt, hval]
  omega

theorem switched_iff (hport : port ≠ 0) (hmedia : d.media = before ++ m :: after)
    (hnext : next.media = before ++ declined m :: after ++ [t38Media port params]) (hgroups : next.groups = d.groups)
    (hversion : next.origin.sessionVersion = nextVersion d.origin.sessionVersion) :
    Switched d next ↔ (∀ x ∈ before ++ after, isAudio x = true → x.port = 0) ∧
      (∀ mid ∈ d.bundleMids, ∃ x ∈ before ++ after, x.mid = some mid ∧ x.port ≠ 0) ∧
      d.origin.sessionVersion.toNat ≠ 2 ^ 64 - 1 := by
  have hmids : next.bundleMids =
    d.bundleMids := by rw [SessionDescription.bundleMids, hgroups, SessionDescription.bundleMids]
  have hmem : ∀ x, x ∈ next.media ↔ x ∈ before ++ after ∨ x = declined m ∨ x = t38Media port params := by
    intro x
    rw [hnext]
    simp only [List.mem_append, List.mem_cons]
    simp only [List.not_mem_nil, or_false]
    tauto
  have hlength : d.media.length = (before ++ declined m :: after).length := by rw [hmedia]; simp
  constructor
  · intro h
    refine ⟨fun x hx hkind => h.silent x ((hmem x).mpr (.inl hx)) (by simpa [isAudio] using hkind), fun mid hmid => ?_,
      (lt_nextVersion_iff _).mp (hversion ▸ h.raised)⟩
    obtain ⟨x, hx, hname, hlive⟩ := h.bundled mid (hmids ▸ hmid)
    obtain hx | rfl | rfl := (hmem x).mp hx
    · exact ⟨x, hx, hname, hlive⟩
    · exact absurd rfl hlive
    · contradiction
  · rintro ⟨hsilent, hbundled, hraised⟩
    refine ⟨?_, ⟨before.length, ?_⟩, fun x hx hkind => ?_, ⟨_, ?_, liveFax_t38Media hport params⟩,
      fun mid hmid => ?_, ?_⟩
    · rw [hnext, hlength, List.take_left, hmedia]
      simp [outline, declined]
    · rw [modify_declined hmedia, hnext, hlength, List.take_left]
    · obtain hx | rfl | rfl := (hmem x).mp hx
      · exact hsilent x hx (by simpa [isAudio] using hkind)
      · rfl
      · contradiction
    · rw [hnext, hlength, List.drop_left]
    · obtain ⟨x, hx, hrest⟩ := hbundled mid (hmids ▸ hmid)
      exact ⟨x, (hmem x).mpr (.inl hx), hrest⟩
    · rw [hversion]
      exact (lt_nextVersion_iff _).mpr hraised

theorem accepted (hport : port ≠ 0) {answerPort : UInt16} (hanswer : answerPort ≠ 0) (origin : Origin)
    (answerAddr : ConnectionInfo) (h : faxRenegotiate d addr port params = .ok next) :
    ∃ a, answerFaxOffer next origin answerAddr answerPort = some a ∧ Accepts next a d.media.length := by
  by_cases hfail : d.media.any isT38Media = true ∨ ∀ m ∈ d.media, isAudio m = false
  · obtain ⟨e, he⟩ := faxRenegotiate_error hfail addr port params
    rw [he] at h
    contradiction
  obtain ⟨hnone, haudio⟩ := not_or.mp hfail
  obtain ⟨before, m, after, hmedia, hm, -, hidx⟩ := exists_audio (d := d) (by simpa using haudio)
  obtain ⟨n, hn, hnext, -⟩ := faxRenegotiate_ok hnone hmedia hidx addr port params
  obtain rfl : n = next := Except.ok.inj (hn.symm.trans h)
  have hlength : d.media.length = (before ++ declined m :: after).length := by rw [hmedia]; simp
  have hold : ∀ x ∈ before ++ declined m :: after, ¬ isT38Media x = true := by
    intro x hx
    obtain hx | rfl | hx : x ∈ before ∨ x = declined m ∨ x ∈ after := by simpa using hx
    · exact fun h => hnone (List.any_eq_true.mpr ⟨x, by rw [hmedia]; simp [hx], h⟩)
    · simp [(isT38Media_of_isAudio hm).2]
    · exact fun h => hnone (List.any_eq_true.mpr ⟨x, by rw [hmedia]; simp [hx], h⟩)
  obtain ⟨hnew, hlive⟩ := liveFax_eq_true.mp (liveFax_t38Media hport params)
  obtain ⟨a, ha, -⟩ := answerFaxOffer_split origin answerAddr answerPort hnext hold hnew
  exact ⟨a, ha, (accepts_iff hanswer hnext hold hnew ha _).mpr ⟨hlength, hlive⟩⟩

theorem switchable_iff (hport : port ≠ 0) (addr : ConnectionInfo) (params : T38Params) :
    ((∃ e, faxRenegotiate d addr port params = .error e) ↔
      (∀ m ∈ d.media, isAudio m = false) ∨ ∃ m ∈ d.media, liveFax m = true) ∧
      (∀ next, faxRenegotiate d addr port params = .ok next → Switched d next) ↔ Switchable d := by
  have hfailed : ∀ {e}, faxRenegotiate d addr port params = .error e →
      ∀ next, faxRenegotiate d addr port params = .ok next → Switched d next := by
    intro e he next hnext
    rw [he] at hnext
    contradiction
  by_cases haudio : ∃ m ∈ d.media, isAudio m = true
  swap
  · have hno : ∀ m ∈ d.media, isAudio m = false := by simpa using haudio
    obtain ⟨e, he⟩ := faxRenegotiate_error (.inr hno) addr port params
    exact iff_of_true ⟨iff_of_true ⟨e, he⟩ (.inl hno), hfailed he⟩ fun h => absurd h haudio
  have hsome : ¬ ∀ m ∈ d.media, isAudio m = false := by simpa using haudio
  by_cases hany : d.media.any isT38Media = true
  · obtain ⟨e, he⟩ := faxRenegotiate_error (.inl hany) addr port params
    constructor
    · rintro ⟨hfails, -⟩ -
      rw [if_pos hany]
      exact (hfails.mp ⟨e, he⟩).resolve_left hsome
    · intro h
      have hlive := h haudio
      rw [if_pos hany] at hlive
      exact ⟨iff_of_true ⟨e, he⟩ (.inr hlive), hfailed he⟩
  · obtain ⟨before, m, after, hmedia, hm, hothers, hidx⟩ := exists_audio haudio
    obtain ⟨next, hok, hnext, hgroups, hversion⟩ := faxRenegotiate_ok hany hmedia hidx addr port params
    have hiff := switched_iff hport hmedia hnext hgroups hversion
    have hdead : ¬ ∃ m ∈ d.media, liveFax m = true := fun ⟨x, hx, hlive⟩ =>
      hany (List.any_eq_true.mpr ⟨x, hx, (liveFax_eq_true.mp hlive).1⟩)
    rw [← hothers] at hiff
    constructor
    · rintro ⟨-, hswitched⟩ -
      rw [if_neg hany]
      exact hiff.mp (hswitched next hok)
    · intro h
      have hcond := h haudio
      rw [if_neg hany] at hcond
      refine ⟨iff_of_false (fun ⟨e, he⟩ => by rw [hok] at he; contradiction) (not_or.mpr ⟨hsome, hdead⟩), fun n hn => ?_⟩
      obtain rfl : next = n := Except.ok.inj (hok.symm.trans hn)
      exact hiff.mpr hcond

/-- **When the switch does what it is for.** -/
theorem faxSwitch_iff (hport : port ≠ 0) {answerPort : UInt16} (hanswer : answerPort ≠ 0) (answerAddr : ConnectionInfo) :
    FaxSwitch d addr port params offer origin answerAddr answerPort ↔ Switchable d ∧ Answerable offer := by
  rw [← switchable_iff hport addr params, ← accepts_iff_answerable hanswer origin answerAddr]
  exact ⟨fun h => ⟨⟨h.fails, h.switched⟩, h.answers, h.declines⟩, fun ⟨⟨hfails, hswitched⟩, hanswers, hdeclines⟩ =>
    ⟨hfails, hswitched, hanswers, hdeclines, fun next hnext => accepted hport hanswer origin answerAddr hnext⟩⟩

/-! ## two calls -/

/-- A call with these blocks. -/
def callWith (media : List MediaDescription) : SessionDescription where
  origin := ⟨[], 1, 1, .v4 0#32⟩
  sessionName := []
  connection := none
  groups := []
  iceLite := false
  media := media

/-- It is a switch back to T.38: audio, and the block that was declined for it. -/
def backToAudio : SessionDescription :=
  callWith [{ kind := .audio, port := 49170, protocol := "RTP/AVP".toList }, declined (t38Media 6000 {})]

/-- The second switch of a call is refused, though it has no live T.38 block. -/
theorem second_switch_refused :
    ¬ FaxSwitch backToAudio ⟨.v4 0#32⟩ 6000 {} backToAudio backToAudio.origin ⟨.v4 0#32⟩ 6000 := by
  intro h
  have hswitchable := (switchable_iff (by decide) _ {}).mp ⟨h.fails, h.switched⟩
  revert hswitchable
  decide +kernel

/-- Audio, and video that is alone in a group. -/
def sampleCall : SessionDescription :=
  { callWith [{ kind := .audio, port := 49170, protocol := [], mid := some ['0'] },
      { kind := .video, port := 49172, protocol := [], mid := some ['1'] }] with
    groups := [⟨"BUNDLE".toList, [['1']]⟩] }

theorem faxSwitch_sampleCall : FaxSwitch sampleCall ⟨.v4 0#32⟩ 6000 {}
    (callWith (sampleCall.media ++ [t38Media 6000 {}])) backToAudio.origin ⟨.v4 0#32⟩ 7000 :=
  (faxSwitch_iff (by decide) (by decide) _).mpr (by decide +kernel)

end SmithsNet.Fax
